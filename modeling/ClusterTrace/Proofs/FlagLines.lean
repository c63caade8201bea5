import ClusterTrace.Experiment.Flags
import ClusterTrace.Proofs.Keyed
import ClusterTrace.Proofs.TextCuts

/-!
# The lines behind the flags

Every line that is not blank gives one flag one value, and the flags of a text hold these values and
no others: under each flag those of its lines, in the order of the lines. Written down again flag by
flag they make a text with the same flags, although its lines may stand in another order.
-/

namespace ClusterTrace

/-- The line that gives a flag the value. -/
def FlagValue.line (key : String) : FlagValue → List Char
  | bare => key.toList
  | value text => key.toList ++ '=' :: text.toList

/-- What is left of the line without the white space around it gives the flag the value. The name of
the flag holds no `=`, since it ends before the first one. -/
def Gives (line : List Char) (key : String) (v : FlagValue) : Prop :=
  Text.trim line ≠ [] ∧ Text.trim line = v.line key ∧ '=' ∉ key.toList

namespace Flags

/-- The lines of a text that hold more than white space. -/
def filledLines (text : String) : List (List Char) :=
  (Text.lines text.toList).filter fun line => !line.all Text.isBlank

/-- All values, each with its flag, flag by flag. -/
def pairs (f : Flags) : List (String × FlagValue) :=
  f.table.entries.flatMap fun e => e.2.map (e.1, ·)

/-- The flags as a text of one line for each value. -/
def written (f : Flags) : String :=
  String.ofList ((f.pairs.map fun s => s.2.line s.1).flatMap (· ++ ['\n']))

/-! ## One line -/

/-- A line is read as a flag and its value exactly if it is what is written for the two. -/
theorem readLine_eq_iff {line : List Char} {key : String} {v : FlagValue} :
    readLine line = (key, v) ↔ line = v.line key ∧ '=' ∉ key.toList := by
  constructor
  · intro h
    unfold readLine at h
    cases hsplit : Text.splitFirst? '=' line with
    | some parts =>
      obtain ⟨before, after⟩ := parts
      rw [hsplit] at h
      obtain ⟨rfl, rfl⟩ := Prod.mk.inj h
      simpa [FlagValue.line] using Text.splitFirst?_eq_some_iff.mp hsplit
    | none =>
      rw [hsplit] at h
      obtain ⟨rfl, rfl⟩ := Prod.mk.inj h
      have hfree : '=' ∉ line := by
        intro hmem
        rw [Text.splitFirst?_of_mem hmem] at hsplit
        cases hsplit
      simpa [FlagValue.line] using hfree
  · rintro ⟨rfl, hkey⟩
    cases v with
    | bare => simp [readLine, FlagValue.line, Text.splitFirst?_of_not_mem hkey]
    | value text =>
      have hsplit := Text.splitFirst?_eq_some_iff.mpr
        ⟨(rfl : _ = key.toList ++ '=' :: text.toList), hkey⟩
      simp [readLine, FlagValue.line, hsplit]

/-- A line gives a flag a value if it is read so without the white space around it, and is not
blank. -/
theorem gives_iff {line : List Char} {key : String} {v : FlagValue} :
    Gives line key v ↔ Text.trim line ≠ [] ∧ readLine (Text.trim line) = (key, v) := by
  rw [Gives, readLine_eq_iff]

theorem flagLines_eq (text : String) : flagLines text = (filledLines text).map Text.trim := by
  rw [flagLines, filledLines, List.filter_map]
  congr 1
  refine List.filter_congr fun line _ => ?_
  rw [Bool.eq_iff_iff]
  simp [Text.trim_eq_nil_iff]

/-- What the lines of a text say, one after the other. -/
def said (text : String) : List (String × FlagValue) := (flagLines text).map readLine

/-- Each line that is not blank says one thing, in the order of the lines. -/
theorem gives_said (text : String) :
    List.Forall₂ (fun line s => Gives line s.1 s.2) (filledLines text) (said text) := by
  rw [said, flagLines_eq, List.map_map, List.forall₂_map_right_iff, List.forall₂_same]
  intro line hline
  rw [gives_iff]
  refine ⟨fun hnil => ?_, rfl⟩
  have hfilled := (List.mem_filter.mp hline).2
  rw [List.all_eq_true.mpr (Text.trim_eq_nil_iff.mp hnil)] at hfilled
  cases hfilled

/-! ## One value after the other -/

/-- The flags are those of some values, in the order in which they are said. -/
structure Collects (f : Flags) (said : List (String × FlagValue)) : Prop where
  keys : f.table.keys = (said.map Prod.fst).eraseDups
  get : ∀ key, f.get key = (said.filter fun s => s.1 = key).map Prod.snd

/-- A value is put behind those that the flag has already; other flags keep theirs. -/
theorem get_add (f : Flags) (key key' : String) (v : FlagValue) :
    (f.add key v).get key' = if key = key' then f.get key ++ [v] else f.get key' := by
  rw [get, add, Keyed.get?_insert]
  split <;> rfl

/-- One more line adds one more value, as the flags that were collected so far do. This is the step
of the reader. -/
theorem Collects.add {f : Flags} {said : List (String × FlagValue)} (h : f.Collects said)
    (key : String) (v : FlagValue) : (f.add key v).Collects (said ++ [(key, v)]) := by
  constructor
  · rw [Flags.add, Keyed.keys_insert, h.keys, List.map_append, List.map_singleton,
      eraseDups_concat]
    simp only [List.mem_eraseDups]
  · intro key'
    rw [get_add, h.get, h.get, List.filter_append, List.map_append]
    by_cases hkey : key = key'
    · simp [hkey]
    · simp [hkey]

/-- The flags that some values make. -/
def collect (said : List (String × FlagValue)) : Flags :=
  said.foldl (fun f s => f.add s.1 s.2) none

theorem parse_eq_collect (text : String) : parse text = collect (said text) := by
  rw [parse, collect, said, List.foldl_map]

theorem collect_concat (said : List (String × FlagValue)) (s : String × FlagValue) :
    collect (said ++ [s]) = (collect said).add s.1 s.2 := by
  rw [collect, List.foldl_append]
  rfl

/-- So what is collected is what was said, by induction on the lines. -/
theorem collects_collect (said : List (String × FlagValue)) : (collect said).Collects said := by
  induction said using List.reverseRecOn with
  | nil => exact ⟨rfl, fun key => rfl⟩
  | append_singleton said s ih =>
    rw [collect_concat]
    exact ih.add s.1 s.2

/-- Every value that a flag has stands among the pairs, and no other one. -/
theorem mem_pairs_iff {f : Flags} {s : String × FlagValue} : s ∈ f.pairs ↔ s.2 ∈ f.get s.1 := by
  obtain ⟨key, v⟩ := s
  constructor
  · intro h
    obtain ⟨e, he, hv⟩ := List.mem_flatMap.mp h
    obtain ⟨w, hw, hpair⟩ := List.mem_map.mp hv
    obtain ⟨rfl, rfl⟩ := Prod.mk.inj hpair
    have hget : f.table.get? e.1 = some e.2 := Keyed.get?_eq_some_iff.mpr he
    simpa [get, hget] using hw
  · intro h
    cases hget : f.table.get? key with
    | none => simp [get, hget] at h
    | some vs =>
      have hv : v ∈ vs := by simpa [get, hget] using h
      refine List.mem_flatMap.mpr ⟨(key, vs), Keyed.get?_eq_some_iff.mp hget, ?_⟩
      exact List.mem_map.mpr ⟨v, hv, rfl⟩

/-- No flag has a value that no line gave it. -/
theorem Collects.mem_of_mem_pairs {f : Flags} {said : List (String × FlagValue)}
    (h : f.Collects said) {s : String × FlagValue} (hs : s ∈ f.pairs) : s ∈ said := by
  rw [mem_pairs_iff, h.get] at hs
  obtain ⟨t, ht, hv⟩ := List.mem_map.mp hs
  obtain ⟨hmem, hkey⟩ := List.mem_filter.mp ht
  have heq : t = s := Prod.ext (of_decide_eq_true hkey) hv
  rwa [← heq]

/-- Every flag in the table has a value, since only a line puts it there. -/
theorem Collects.ne_nil {f : Flags} {said : List (String × FlagValue)} (h : f.Collects said)
    {e : String × List FlagValue} (he : e ∈ f.table.entries) : e.2 ≠ [] := by
  have hfound : f.table.get? e.1 = some e.2 := Keyed.get?_eq_some_iff.mpr he
  have hget : f.get e.1 = e.2 := by simp [Flags.get, hfound]
  have hkey : e.1 ∈ said.map Prod.fst := by
    rw [← List.mem_eraseDups, ← h.keys]
    exact List.mem_map_of_mem he
  obtain ⟨s, hs, hname⟩ := List.mem_map.mp hkey
  rw [← hget, h.get]
  intro hnil
  have hnone := List.filter_eq_nil_iff.mp (List.map_eq_nil_iff.mp hnil) s hs
  exact hnone (decide_eq_true hname)

/-! ## The number of values -/

/-- The number of values of all flags together. -/
def valueCount (f : Flags) : Nat := f.table.values.flatten.length

/-- One more value makes the table longer by one, whether its flag is new or not. -/
theorem length_flatten_put (key : String) (v : FlagValue) (es : List (String × List FlagValue)) :
    ((Keyed.put key (((es.find? fun e => e.1 = key).map Prod.snd).getD [] ++ [v]) es).map
      Prod.snd).flatten.length = (es.map Prod.snd).flatten.length + 1 := by
  induction es with
  | nil => rfl
  | cons e es ih =>
    by_cases hkey : e.1 = key
    · simp only [Keyed.put, if_pos hkey, List.find?_cons, decide_eq_true hkey, List.map_cons,
        List.flatten_cons, List.length_append, Option.map_some, Option.getD_some,
        List.length_singleton]
      omega
    · simp only [Keyed.put, if_neg hkey, List.find?_cons, decide_eq_false hkey, List.map_cons,
        List.flatten_cons, List.length_append, ih]
      omega

theorem valueCount_add (f : Flags) (key : String) (v : FlagValue) :
    (f.add key v).valueCount = f.valueCount + 1 :=
  length_flatten_put key v f.table.entries

/-- The table has as many values as there are lines that say something. -/
theorem valueCount_collect (said : List (String × FlagValue)) :
    (collect said).valueCount = said.length := by
  induction said using List.reverseRecOn with
  | nil => rfl
  | append_singleton said s ih => rw [collect_concat, valueCount_add, ih, List.length_append]; rfl

/-! ## Written and read again -/

theorem insert_insert (t : Keyed String (List FlagValue)) (key : String) (vs ws : List FlagValue) :
    (t.insert key vs).insert key ws = t.insert key ws := by
  have hkey : key ∈ (t.insert key vs).keys := Keyed.mem_keys_insert.mpr (.inr rfl)
  refine Keyed.ext_get? ?_ fun key' => ?_
  · rw [Keyed.keys_insert, if_pos hkey, Keyed.keys_insert, Keyed.keys_insert]
  · rw [Keyed.get?_insert, Keyed.get?_insert, Keyed.get?_insert]
    by_cases heq : key = key'
    · simp [heq]
    · simp [heq]

/-- The values of one flag, one after the other. -/
theorem foldl_add (f : Flags) (key : String) {vs : List FlagValue} (hne : vs ≠ []) :
    (vs.map (key, ·)).foldl (fun f s => f.add s.1 s.2) f =
      ⟨f.table.insert key (f.get key ++ vs)⟩ := by
  induction vs using List.reverseRecOn with
  | nil => exact absurd rfl hne
  | append_singleton vs v ih =>
    rw [List.map_append, List.foldl_append]
    by_cases hvs : vs = []
    · subst hvs
      rfl
    · rw [ih hvs, List.map_singleton, List.foldl_cons, List.foldl_nil, add, insert_insert, get,
        Keyed.get?_insert, if_pos rfl, Option.getD_some, List.append_assoc]

/-- A table that is said flag by flag is collected again as it was, since each flag then arrives
where it stands. -/
theorem entries_collect {es : List (String × List FlagValue)} (hnodup : (es.map Prod.fst).Nodup)
    (hne : ∀ e ∈ es, e.2 ≠ []) :
    (collect (es.flatMap fun e => e.2.map (e.1, ·))).table.entries = es := by
  induction es using List.reverseRecOn with
  | nil => rfl
  | append_singleton es e ih =>
    rw [List.map_append, List.nodup_append] at hnodup
    have hfront := ih hnodup.1 fun e he => hne e (List.mem_append_left _ he)
    have hnew : e.1 ∉ (collect (es.flatMap fun e => e.2.map (e.1, ·))).table.keys := by
      rw [Keyed.keys, hfront]
      intro hmem
      exact hnodup.2.2 e.1 hmem e.1 (by simp) rfl
    have hget : (collect (es.flatMap fun e => e.2.map (e.1, ·))).get e.1 = [] := by
      rw [get, Keyed.get?_eq_none_iff.mpr hnew, Option.getD_none]
    rw [List.flatMap_append, List.flatMap_singleton, collect, List.foldl_append, ← collect,
      foldl_add _ _ (hne e (by simp)), hget, List.nil_append,
      Keyed.entries_insert_of_not_mem hnew, hfront]

theorem collect_pairs {f : Flags} (hne : ∀ e ∈ f.table.entries, e.2 ≠ []) :
    collect f.pairs = f := by
  have htable : (collect f.pairs).table = f.table :=
    Keyed.ext (entries_collect f.table.nodup_keys hne)
  exact congrArg Flags.mk htable

/-- A line that a text of flags holds: not empty, with no line feed and no white space around it. -/
def IsFlagLine (line : List Char) : Prop := line ≠ [] ∧ Text.trim line = line ∧ '\n' ∉ line

/-- Without the white space around it a line can be written as it is. -/
theorem isFlagLine_of_mem {text : String} {line : List Char} (h : line ∈ flagLines text) :
    IsFlagLine line := by
  obtain ⟨hmem, hne⟩ := List.mem_filter.mp h
  obtain ⟨l, hl, rfl⟩ := List.mem_map.mp hmem
  refine ⟨of_decide_eq_true hne, Text.trim_trim l, ?_⟩
  intro hfeed
  exact Text.not_mem_of_mem_lines hl (Text.trim_subset l hfeed)

/-- Lines that are written one below the other are read as these lines. -/
theorem flagLines_of_written {lines : List (List Char)} (h : ∀ line ∈ lines, IsFlagLine line) :
    flagLines (String.ofList (lines.flatMap (· ++ ['\n']))) = lines := by
  have hreturn : ∀ line ∈ lines, line.getLast? ≠ some '\r' := by
    intro line hline hlast
    have hblank := Text.getLast?_trim line
    rw [(h line hline).2.1, hlast] at hblank
    revert hblank
    decide
  have htrim : lines.map Text.trim = lines := by
    conv_rhs => rw [← List.map_id lines]
    exact List.map_congr_left fun line hline => (h line hline).2.1
  rw [flagLines, String.toList_ofList, Text.lines_flatMap (fun line hline => (h line hline).2.2)
    hreturn, htrim, List.filter_eq_self]
  intro line hline
  exact decide_eq_true (h line hline).1

/-- Flags that can be read from some text are the flags of the text that they are written as. -/
theorem parse_written_of_collects {f : Flags} {text : String} (h : f.Collects (said text)) :
    parse f.written = f := by
  have hsaid : ∀ s ∈ f.pairs, ∃ line ∈ flagLines text, line = s.2.line s.1 ∧ '=' ∉ s.1.toList := by
    intro s hs
    obtain ⟨line, hline, rfl⟩ := List.mem_map.mp (h.mem_of_mem_pairs hs)
    exact ⟨line, hline, readLine_eq_iff.mp rfl⟩
  have hlines : ∀ line ∈ f.pairs.map fun s => s.2.line s.1, IsFlagLine line := by
    intro line hline
    obtain ⟨s, hs, rfl⟩ := List.mem_map.mp hline
    obtain ⟨line, hmem, hwritten, -⟩ := hsaid s hs
    rw [← hwritten]
    exact isFlagLine_of_mem hmem
  have hread : (f.pairs.map fun s => s.2.line s.1).map readLine = f.pairs := by
    rw [List.map_map]
    conv_rhs => rw [← List.map_id f.pairs]
    refine List.map_congr_left fun s hs => ?_
    obtain ⟨-, -, -, hkey⟩ := hsaid s hs
    exact readLine_eq_iff.mpr ⟨rfl, hkey⟩
  rw [parse_eq_collect, said, written, flagLines_of_written hlines, hread,
    collect_pairs fun e => h.ne_nil]

end Flags

/-- The flags of a text are what its lines say that are not blank: the flags in the order in which
they first appear, none of them without a value, and under each the values of its lines in order, so
that there are as many values as such lines. Written down again they are the same flags. -/
theorem flags_fromLines (text : String) :
    ∃ said, List.Forall₂ (fun line s => Gives line s.1 s.2) (Flags.filledLines text) said ∧
      (Flags.parse text).Collects said ∧
      [] ∉ (Flags.parse text).table.values ∧
      (Flags.parse text).valueCount = (Flags.filledLines text).length ∧
      Flags.parse (Flags.parse text).written = Flags.parse text := by
  have hcollects : (Flags.parse text).Collects (Flags.said text) := by
    rw [Flags.parse_eq_collect]
    exact Flags.collects_collect (Flags.said text)
  refine ⟨Flags.said text, Flags.gives_said text, hcollects, ?_, ?_, ?_⟩
  · intro hnil
    obtain ⟨e, he, hvalues⟩ := List.mem_map.mp hnil
    exact hcollects.ne_nil he hvalues
  · rw [Flags.parse_eq_collect, Flags.valueCount_collect]
    exact (Flags.gives_said text).length_eq.symm
  · exact Flags.parse_written_of_collects hcollects

/-- A flag whose name ends in a blank is another one than the flag without it. -/
example : (Flags.parse "--a=1\n--b\n\n --a =2 \r\n--a\n=").written =
    "--a=1\n--a\n--b\n--a =2\n=\n" := by decide +kernel

end ClusterTrace
