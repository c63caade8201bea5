import ClusterTrace.Text.Blank
import ClusterTrace.Text.Split
import Mathlib.Data.List.Basic
import Mathlib.Data.List.DropRight
import Mathlib.Data.List.TakeWhile
import Mathlib.Data.Option.Basic

/-!
# Cut texts

What the ways of cutting a list find: all pieces between separators, the first separator, and the
first place where a marker stands. A text that neither begins nor ends with white space is trimmed
to itself.
-/

namespace ClusterTrace.Text

variable {α : Type} [DecidableEq α] {sep : α}

/-! ## Pieces -/

theorem piecesFrom_eq_splitOnPPrepend (done : List (List α)) (current xs : List α) :
    piecesFrom sep done current xs = done.reverse ++ xs.splitOnPPrepend (· == sep) current := by
  induction xs generalizing done current with
  | nil =>
    rw [piecesFrom, List.splitOnPPrepend_nil]
    exact List.reverse_cons
  | cons x xs ih =>
    rw [piecesFrom, ih, ih, List.splitOnPPrepend_cons_eq_if, List.reverse_cons, List.append_assoc,
      List.splitOnPPrepend_nil_right]
    by_cases hx : x = sep
    · rw [if_pos hx, if_pos (beq_iff_eq.mpr hx)]
      rfl
    · rw [if_neg hx, if_neg (mt beq_iff_eq.mp hx)]

theorem pieces_eq_splitOn (xs : List α) : pieces sep xs = xs.splitOn sep :=
  piecesFrom_eq_splitOnPPrepend [] [] xs

theorem pieces_cons (x : α) (xs : List α) : pieces sep (x :: xs) =
    if x = sep then [] :: pieces sep xs else (pieces sep xs).modifyHead (List.cons x) := by
  rw [pieces_eq_splitOn, pieces_eq_splitOn, List.splitOn_cons_eq_if_modifyHead]
  simp only [beq_iff_eq]

/-- One more element goes to the last piece. -/
theorem exists_pieces_concat {c : α} (hc : c ≠ sep) (xs : List α) : ∃ front last,
    pieces sep xs = front ++ [last] ∧ pieces sep (xs ++ [c]) = front ++ [last ++ [c]] := by
  induction xs with
  | nil =>
    refine ⟨[], [], rfl, ?_⟩
    rw [List.nil_append, pieces_cons, if_neg hc]
    rfl
  | cons x xs ih =>
    obtain ⟨front, last, hxs, hconcat⟩ := ih
    rw [List.cons_append, pieces_cons, pieces_cons, hxs, hconcat]
    by_cases hx : x = sep
    · rw [if_pos hx, if_pos hx]
      exact ⟨[] :: front, last, rfl, rfl⟩
    · rw [if_neg hx, if_neg hx]
      cases front with
      | nil => exact ⟨[], x :: last, rfl, rfl⟩
      | cons piece front => exact ⟨(x :: piece) :: front, last, rfl, rfl⟩

/-- There is one piece more than there are separators. -/
theorem length_pieces (xs : List α) : (pieces sep xs).length = xs.count sep + 1 := by
  induction xs with
  | nil => rfl
  | cons x xs ih =>
    rw [pieces_cons, List.count_cons]
    by_cases hx : x = sep
    · rw [if_pos hx, if_pos (beq_iff_eq.mpr hx), List.length_cons, ih]
    · rw [if_neg hx, if_neg (mt beq_iff_eq.mp hx), List.length_modifyHead, ih]

theorem not_mem_of_mem_pieces {xs piece : List α} (h : piece ∈ pieces sep xs) : sep ∉ piece := by
  induction xs generalizing piece with
  | nil =>
    rw [List.mem_singleton.mp h]
    exact List.not_mem_nil
  | cons x xs ih =>
    rw [pieces_cons] at h
    by_cases hx : x = sep
    · rw [if_pos hx] at h
      rcases List.mem_cons.mp h with rfl | h
      · exact List.not_mem_nil
      · exact ih h
    · rw [if_neg hx] at h
      cases hpieces : pieces sep xs with
      | nil => simp [hpieces] at h
      | cons first rest =>
        rw [hpieces] at h ih
        rcases List.mem_cons.mp h with rfl | h
        · rw [List.mem_cons, not_or]
          exact ⟨fun heq => hx heq.symm, ih List.mem_cons_self⟩
        · exact ih (List.mem_cons_of_mem _ h)

/-- Only an empty piece at the end is left out. -/
theorem pieces_eq_terminated (sep : α) (xs : List α) :
    pieces sep xs = terminated sep xs ∨ pieces sep xs = terminated sep xs ++ [[]] := by
  unfold terminated
  by_cases hlast : (pieces sep xs).getLast? = some []
  · rw [if_pos hlast]
    obtain ⟨front, hfront⟩ := List.getLast?_eq_some_iff.mp hlast
    exact .inr (by rw [hfront, List.dropLast_concat])
  · rw [if_neg hlast]
    exact .inl rfl

/-- Each piece but the last ended with a separator. The last one counts if it is not empty. -/
theorem terminated_of_pieces {xs last : List α} {front : List (List α)}
    (h : pieces sep xs = front ++ [last]) :
    terminated sep xs = front ++ if last = [] then [] else [last] := by
  rw [terminated, h, List.getLast?_concat, List.dropLast_concat]
  by_cases hlast : last = []
  · rw [if_pos (congrArg some hlast), if_pos hlast, List.append_nil]
  · rw [if_neg fun hsome => hlast (Option.some.inj hsome), if_neg hlast]

/-! ## The first separator -/

/-- The cut is at the first separator, which belongs to neither part. -/
theorem splitFirst?_eq_some_iff {l before after : List α} :
    splitFirst? sep l = some (before, after) ↔
      l = before ++ sep :: after ∧ sep ∉ before := by
  induction l generalizing before with
  | nil => simp [splitFirst?]
  | cons x xs ih =>
    by_cases hx : x = sep
    · subst hx
      cases before with
      | nil => simp [splitFirst?, eq_comm]
      | cons b before =>
        simp only [splitFirst?, if_pos, Option.some.injEq, Prod.mk.injEq, List.nil_eq,
          reduceCtorEq, false_and, List.cons_append, List.cons.injEq, List.mem_cons, not_or,
          false_iff, not_and]
        rintro ⟨rfl, -⟩ hne
        exact absurd rfl hne
    · rw [splitFirst?, if_neg hx, Option.map_eq_some_iff]
      constructor
      · rintro ⟨⟨b, a⟩, hsplit, heq⟩
        obtain ⟨rfl, rfl⟩ := Prod.mk.inj heq
        obtain ⟨rfl, hb⟩ := ih.mp hsplit
        refine ⟨rfl, ?_⟩
        rw [List.mem_cons, not_or]
        exact ⟨fun h => hx h.symm, hb⟩
      · rintro ⟨heq, hb⟩
        cases before with
        | nil => exact absurd (List.cons.inj heq).1 hx
        | cons b before =>
          obtain ⟨rfl, rfl⟩ := List.cons.inj heq
          rw [List.mem_cons, not_or] at hb
          exact ⟨(before, after), ih.mpr ⟨rfl, hb.2⟩, rfl⟩

theorem splitFirst?_of_mem {l : List α} (h : sep ∈ l) : splitFirst? sep l =
    some (l.takeWhile (· ≠ sep), (l.dropWhile (· ≠ sep)).tail) := by
  obtain ⟨before, after, rfl, hbefore⟩ := List.eq_append_cons_of_mem h
  have hne : ∀ x ∈ before, decide (x ≠ sep) = true := fun x hx =>
    decide_eq_true (ne_of_mem_of_not_mem hx hbefore)
  rw [splitFirst?_eq_some_iff.mpr ⟨rfl, hbefore⟩, List.takeWhile_append_of_pos hne,
    List.dropWhile_append_of_pos hne]
  simp

theorem splitFirst?_of_not_mem {l : List α} (h : sep ∉ l) : splitFirst? sep l = none := by
  rw [Option.eq_none_iff_forall_ne_some]
  rintro ⟨before, after⟩ hsplit
  rw [(splitFirst?_eq_some_iff.mp hsplit).1] at h
  exact h (List.mem_append_right before List.mem_cons_self)

theorem splitFirst?_concat {c : α} (hc : c ≠ sep) (l : List α) : splitFirst? sep (l ++ [c]) =
    (splitFirst? sep l).map fun (before, after) => (before, after ++ [c]) := by
  by_cases hmem : sep ∈ l
  · obtain ⟨before, after, rfl, hbefore⟩ := List.eq_append_cons_of_mem hmem
    have hconcat : (before ++ sep :: after) ++ [c] = before ++ sep :: (after ++ [c]) := by simp
    rw [splitFirst?_eq_some_iff.mpr ⟨hconcat, hbefore⟩,
      splitFirst?_eq_some_iff.mpr ⟨rfl, hbefore⟩]
    rfl
  · have hmem' : sep ∉ l ++ [c] := by
      rw [List.mem_append, List.mem_singleton, not_or]
      exact ⟨hmem, hc.symm⟩
    rw [splitFirst?_of_not_mem hmem, splitFirst?_of_not_mem hmem']
    rfl

/-! ## The first occurrence of a marker -/

/-- The marker stands between the two parts of the text, and nowhere further to the left. -/
def FirstAt (marker text before after : List α) : Prop :=
  text = before ++ marker ++ after ∧
    ∀ start rest, text = start ++ marker ++ rest → before.length ≤ start.length

variable {marker text before after : List α}

omit [DecidableEq α] in
/-- A marker has one first place, so the texts on both sides are determined. -/
theorem FirstAt.unique {before' after' : List α} (h : FirstAt marker text before after)
    (h' : FirstAt marker text before' after') : before = before' ∧ after = after' := by
  have hlength : before.length = before'.length :=
    Nat.le_antisymm (h.2 _ _ h'.1) (h'.2 _ _ h.1)
  have htext := h.1.symm.trans h'.1
  rw [List.append_assoc, List.append_assoc] at htext
  obtain ⟨hbefore, hrest⟩ := List.append_inj htext hlength
  exact ⟨hbefore, List.append_cancel_left hrest⟩

theorem dropMarker?_eq_some_iff :
    dropMarker? marker text = some after ↔ text = marker ++ after := by
  induction marker generalizing text with
  | nil => simp [dropMarker?]
  | cons m marker ih =>
    cases text with
    | nil => simp [dropMarker?]
    | cons x text =>
      by_cases hx : x = m
      · subst hx
        simp [dropMarker?, ih]
      · simp [dropMarker?, hx]

theorem dropMarker?_eq_none (h : dropMarker? marker text = none) (rest : List α) :
    text ≠ marker ++ rest := by
  intro htext
  rw [dropMarker?_eq_some_iff.mpr htext] at h
  exact Option.some_ne_none rest h

/-- The search drops one element after the other, so it stops at the first place. -/
theorem firstAt_of_splitMarker? (h : splitMarker? marker text = some (before, after)) :
    FirstAt marker text before after := by
  induction text generalizing before with
  | nil =>
    obtain ⟨rest, hrest, heq⟩ := Option.map_eq_some_iff.mp h
    obtain ⟨rfl, rfl⟩ := Prod.mk.inj heq
    exact ⟨dropMarker?_eq_some_iff.mp hrest, fun _ _ _ => Nat.zero_le _⟩
  | cons x xs ih =>
    rw [splitMarker?] at h
    cases hhere : dropMarker? marker (x :: xs) with
    | some rest =>
      rw [hhere] at h
      obtain ⟨rfl, rfl⟩ := Prod.mk.inj (Option.some.inj h)
      exact ⟨dropMarker?_eq_some_iff.mp hhere, fun _ _ _ => Nat.zero_le _⟩
    | none =>
      rw [hhere] at h
      obtain ⟨⟨b, a⟩, hsplit, heq⟩ := Option.map_eq_some_iff.mp h
      obtain ⟨rfl, rfl⟩ := Prod.mk.inj heq
      obtain ⟨hxs, hfirst⟩ := ih hsplit
      refine ⟨congrArg (x :: ·) hxs, fun start rest htext => ?_⟩
      -- The marker does not stand at the start, so something is before it.
      cases start with
      | nil => exact absurd htext (dropMarker?_eq_none hhere rest)
      | cons y start => exact Nat.succ_le_succ (hfirst start rest (List.cons.inj htext).2)

/-- A search that finds nothing has tried every place of the text. -/
theorem not_isInfix_of_splitMarker? (h : splitMarker? marker text = none) :
    ¬ marker <:+: text := by
  rintro ⟨start, rest, htext⟩
  induction text generalizing start with
  | nil =>
    obtain ⟨hmarker, -⟩ := List.append_eq_nil_iff.mp htext
    rw [(List.append_eq_nil_iff.mp hmarker).2] at h
    exact Option.some_ne_none _ h
  | cons x xs ih =>
    rw [splitMarker?] at h
    cases hhere : dropMarker? marker (x :: xs) with
    | some after =>
      rw [hhere] at h
      exact Option.some_ne_none _ h
    | none =>
      rw [hhere, Option.map_eq_none_iff] at h
      cases start with
      | nil => exact dropMarker?_eq_none hhere rest htext.symm
      | cons y start => exact ih h start (List.cons.inj htext).2

/-- What the search finds is the first place of the marker, with the texts on both sides. -/
theorem splitMarker?_eq_some_iff :
    splitMarker? marker text = some (before, after) ↔ FirstAt marker text before after := by
  refine ⟨firstAt_of_splitMarker?, fun h => ?_⟩
  cases hsplit : splitMarker? marker text with
  | none => exact absurd ⟨before, after, h.1.symm⟩ (not_isInfix_of_splitMarker? hsplit)
  | some parts =>
    obtain ⟨hbefore, hafter⟩ := (firstAt_of_splitMarker? hsplit).unique h
    exact congrArg some (Prod.ext hbefore hafter)

theorem hasMarker_iff : hasMarker marker text = true ↔ marker <:+: text := by
  rw [hasMarker, Option.isSome_iff_exists]
  constructor
  · rintro ⟨⟨before, after⟩, hsplit⟩
    exact ⟨before, after, (firstAt_of_splitMarker? hsplit).1.symm⟩
  · intro h
    rw [← Option.ne_none_iff_exists']
    exact fun hnone => not_isInfix_of_splitMarker? hnone h

omit [DecidableEq α] in
/-- An element that is not in the marker completes none at the end of the text. -/
theorem isInfix_concat_iff {c : α} (hc : c ∉ marker) :
    marker <:+: text ++ [c] ↔ marker <:+: text := by
  rw [List.infix_concat_iff, List.suffix_concat_iff]
  constructor
  · rintro ((rfl | ⟨front, rfl, -⟩) | h)
    · exact List.nil_infix
    · exact absurd (List.mem_append_right front List.mem_cons_self) hc
    · exact h
  · exact Or.inr

omit [DecidableEq α] in
/-- What comes after the text makes no earlier place for the marker. -/
theorem FirstAt.append (h : FirstAt marker text before after) (more : List α) :
    FirstAt marker (text ++ more) before (after ++ more) := by
  refine ⟨by rw [h.1, List.append_assoc], fun start rest htext => ?_⟩
  by_contra hearlier
  have hlength : (start ++ marker).length ≤ text.length := by
    rw [h.1]
    simp only [List.length_append]
    omega
  obtain ⟨rest', hrest'⟩ := List.prefix_of_prefix_length_le ⟨rest, htext.symm⟩
    (List.prefix_append text more) hlength
  exact hearlier (h.2 start rest' hrest'.symm)

omit [DecidableEq α] in
/-- A marker that cannot overlap itself stands where it is put, unless it stands further to the
left. -/
theorem firstAt_of_not_isInfix {m : α} (hm : m ∉ marker) (h : ¬ (m :: marker) <:+: before)
    (after : List α) : FirstAt (m :: marker) (before ++ m :: marker ++ after) before after := by
  refine ⟨rfl, fun start rest htext => ?_⟩
  by_contra hearlier
  rw [List.append_assoc, List.append_assoc] at htext
  have hstart : start <+: before ++ (m :: marker ++ after) := ⟨_, htext.symm⟩
  obtain ⟨between, rfl⟩ := List.prefix_of_prefix_length_le hstart (List.prefix_append before _)
    (Nat.le_of_not_le hearlier)
  rw [List.append_assoc] at htext
  have hbetween := List.append_cancel_left htext
  cases between with
  | nil =>
    rw [List.append_nil] at hearlier
    exact hearlier (Nat.le_refl _)
  | cons x between =>
    obtain ⟨rfl, hrest⟩ := List.cons.inj hbetween
    rcases List.append_eq_append_iff.mp hrest with ⟨inner, hmarker, hinner⟩ | ⟨inner, rfl, -⟩
    · cases inner with
      | nil =>
        rw [List.append_nil] at hmarker
        exact h ⟨start, [], by rw [hmarker, List.append_nil]⟩
      | cons y inner =>
        obtain ⟨rfl, -⟩ := List.cons.inj hinner
        exact hm (hmarker ▸ List.mem_append_right between List.mem_cons_self)
    · exact h ⟨start, inner, by simp⟩

/-- An element that is not in the marker stays at the end of the text behind it. -/
theorem splitMarker?_concat {c : α} (hc : c ∉ marker) (text : List α) :
    splitMarker? marker (text ++ [c]) =
      (splitMarker? marker text).map fun (before, after) => (before, after ++ [c]) := by
  cases hsplit : splitMarker? marker text with
  | some parts =>
    exact splitMarker?_eq_some_iff.mpr ((firstAt_of_splitMarker? hsplit).append [c])
  | none =>
    have hnone : ¬ hasMarker marker (text ++ [c]) = true := by
      rw [hasMarker_iff, isInfix_concat_iff hc]
      exact not_isInfix_of_splitMarker? hsplit
    rw [hasMarker, Option.not_isSome_iff_eq_none] at hnone
    exact hnone

/-! ## White space -/

theorem dropWhile_isBlank {text : List Char} (h : text.head?.any isBlank = false) :
    text.dropWhile isBlank = text := by
  cases text with
  | nil => rfl
  | cons c text => exact List.dropWhile_cons_of_neg (Bool.eq_false_iff.mp h)

/-- Only the ends are trimmed, so white space further inside stays. -/
theorem trim_eq_self {text : List Char} (hfirst : text.head?.any isBlank = false)
    (hlast : text.getLast?.any isBlank = false) : trim text = text := by
  rw [List.getLast?_eq_head?_reverse] at hlast
  rw [trim, trimStart, dropWhile_isBlank hfirst, trimEnd, dropWhile_isBlank hlast,
    List.reverse_reverse]

theorem any_isBlank_eq_false {text : List Char} {c? : Option Char}
    (h : ∀ c ∈ text, isBlank c = false) (hmem : ∀ c ∈ c?, c ∈ text) : c?.any isBlank = false := by
  cases c? with
  | none => rfl
  | some c => exact h c (hmem c rfl)

theorem trim_subset (text : List Char) : trim text ⊆ text := by
  intro c hc
  have hstart := (List.rdropWhile_prefix isBlank (trimStart text)).subset hc
  exact (List.dropWhile_suffix isBlank).subset hstart

/-- Nothing is left of a text of white space, and of no other. -/
theorem trim_eq_nil_iff {text : List Char} : trim text = [] ↔ ∀ c ∈ text, isBlank c = true := by
  constructor
  · intro h
    have hall := List.rdropWhile_eq_nil_iff.mp h
    by_contra hfilled
    have hne : trimStart text ≠ [] := fun hnil => hfilled (List.dropWhile_eq_nil_iff.mp hnil)
    -- What stands behind the white space at the start begins with something else.
    have hhead := hall _ (List.head_mem hne)
    exact Bool.noConfusion ((List.head_dropWhile_not isBlank hne).symm.trans hhead)
  · intro h
    rw [trim, trimStart, List.dropWhile_eq_nil_iff.mpr h]
    rfl

theorem head?_trim (text : List Char) : (trim text).head?.any isBlank = false := by
  cases htrim : trim text with
  | nil => rfl
  | cons c rest =>
    obtain ⟨back, hback⟩ := List.rdropWhile_prefix isBlank (trimStart text)
    have hstart : text.dropWhile isBlank = c :: (rest ++ back) := by
      rw [← List.cons_append, ← htrim]
      exact hback.symm
    have hne : text.dropWhile isBlank ≠ [] := by simp [hstart]
    have hhead := List.head_dropWhile_not isBlank hne
    simpa [hstart] using hhead

theorem getLast?_trim (text : List Char) : (trim text).getLast?.any isBlank = false := by
  by_cases hne : trim text = []
  · rw [hne]
    rfl
  · rw [List.getLast?_eq_some_getLast hne]
    exact Bool.eq_false_iff.mpr (List.rdropWhile_last_not isBlank (trimStart text) hne)

/-- A trimmed text neither begins nor ends with white space, so it is trimmed to itself. -/
theorem trim_trim (text : List Char) : trim (trim text) = trim text :=
  trim_eq_self (head?_trim text) (getLast?_trim text)

/-- White space at the end of a text is trimmed. -/
theorem trim_concat {c : Char} (hc : isBlank c = true) (text : List Char) :
    trim (text ++ [c]) = trim text := by
  have hend : ∀ s, trimEnd (s ++ [c]) = trimEnd s := by
    intro s
    rw [trimEnd, List.reverse_append, List.reverse_singleton, List.singleton_append,
      List.dropWhile_cons_of_pos hc]
    rfl
  rw [trim, trim, trimStart, trimStart, List.dropWhile_append]
  by_cases hblank : (text.dropWhile isBlank).isEmpty = true
  · rw [if_pos hblank, List.dropWhile_cons_of_pos hc, List.isEmpty_iff.mp hblank]
    rfl
  · rw [if_neg hblank, hend]

/-! ## Lines -/

theorem not_mem_of_mem_lines {text line : List Char} (h : line ∈ lines text) : '\n' ∉ line := by
  have hpiece : ∀ piece ∈ pieces '\n' text, '\n' ∉ piece := fun piece => not_mem_of_mem_pieces
  have hended : line ∈ (pieces '\n' text).dropLast.map dropReturn → '\n' ∉ line := by
    intro h
    obtain ⟨piece, hmem, rfl⟩ := List.mem_map.mp h
    have hfree := hpiece piece (List.dropLast_subset _ hmem)
    unfold dropReturn
    split
    · exact fun hc => hfree (List.dropLast_subset _ hc)
    · exact hfree
  simp only [lines] at h
  split at h
  · exact hended h
  · exact hended h
  · rename_i last _ hlast
    rcases List.mem_append.mp h with h | h
    · exact hended h
    · rw [List.mem_singleton.mp h]
      exact hpiece last (List.mem_of_getLast? hlast)

/-- Lines that are written one below the other are read back, unless they hold line ends. -/
theorem lines_flatMap {written : List (List Char)} (hfeed : ∀ line ∈ written, '\n' ∉ line)
    (hreturn : ∀ line ∈ written, line.getLast? ≠ some '\r') :
    lines (written.flatMap (· ++ ['\n'])) = written := by
  have hpieces : pieces '\n' (written.flatMap (· ++ ['\n'])) = written ++ [[]] := by
    rw [pieces_eq_splitOn]
    induction written with
    | nil => rfl
    | cons line written ih =>
      have hline : '\n' ∉ line := hfeed line List.mem_cons_self
      rw [List.flatMap_cons, List.append_assoc, List.singleton_append,
        List.splitOn_append_cons_self, List.splitOn_eq_singleton hline,
        ih (fun l hl => hfeed l (List.mem_cons_of_mem _ hl))
          fun l hl => hreturn l (List.mem_cons_of_mem _ hl)]
      rfl
  have hended : written.map dropReturn = written := by
    conv_rhs => rw [← List.map_id written]
    refine List.map_congr_left fun line hline => ?_
    exact if_neg (hreturn line hline)
  simp [lines, hpieces, hended]

theorem isBlank_of_isDigit {c : Char} (h : c.isDigit = true) : isBlank c = false := by
  have hrange : 48 ≤ c.toNat ∧ c.toNat ≤ 57 := by
    simpa [Char.isDigit, UInt32.le_iff_toNat_le] using h
  simp only [isBlank, inRanges, blankRanges, List.any_cons, List.any_nil,
    Bool.or_false, Bool.or_eq_false_iff, Bool.and_eq_false_iff, decide_eq_false_iff_not]
  omega

end ClusterTrace.Text
