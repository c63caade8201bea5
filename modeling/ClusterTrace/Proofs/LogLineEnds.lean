import ClusterTrace.Proofs.SolverLog

/-!
# How the lines of a log end

A log whose lines end in a carriage return and a line feed has the records of the log with the line
feeds alone. The carriage return stays in its line, but it is no part of a damaged sequence before
it, no marker of lines without one is found in another place, and where no bracket closes the body
it only comes to the last value, which is trimmed.
-/

namespace ClusterTrace

/-! ## Bytes -/

namespace Utf8

/-- A byte below 128 breaks a sequence off just as the end of the bytes does. It neither continues a
sequence nor is it allowed as a second byte. -/
theorem lead_concat {b : UInt8} (hb : b.toNat < 0x80) (first : UInt8) (rest : Bytes) :
    lead first (rest ++ [b]) = lead first rest := by
  have hcontinues : isContinuation b = false := by
    rw [isContinuation, decide_eq_false (Nat.not_le.mpr hb)]
    rfl
  have hsecond : secondAllowed first b = false := by
    rw [secondAllowed, decide_eq_false, Bool.false_and]
    split
    · omega
    · split <;> omega
  have h2 : lead2 first (rest ++ [b]) = lead2 first rest := by
    match rest with
    | [] => simp [lead2, hcontinues]
    | c :: rest => rfl
  have h3 : lead3 first (rest ++ [b]) = lead3 first rest := by
    match rest with
    | [] => simp [lead3, hsecond]
    | [c] => cases hc : secondAllowed first c <;> simp [lead3, hcontinues, hc]
    | c :: d :: rest => rfl
  have h4 : lead4 first (rest ++ [b]) = lead4 first rest := by
    match rest with
    | [] => simp [lead4, hsecond]
    | [c] => cases hc : secondAllowed first c <;> simp [lead4, hcontinues, hc]
    | [c, d] =>
      cases hc : secondAllowed first c <;> cases hd : isContinuation d <;>
        simp [lead4, hcontinues, hc, hd]
    | c :: d :: e :: rest => rfl
  simp only [lead, h2, h3, h4]

/-- The bytes that belong to a lead after its first one. -/
def Lead.more : Lead → Nat
  | .scalar _ more => more
  | .damage more => more

/-- A sequence of bytes never claims more bytes than there are. -/
theorem more_lead_le (first : UInt8) (rest : Bytes) : (lead first rest).more ≤ rest.length := by
  have h2 : (lead2 first rest).more ≤ rest.length := by
    unfold lead2
    split
    · split <;> simp [Lead.more]
    · exact Nat.le_refl 0
  have h3 : (lead3 first rest).more ≤ rest.length := by
    unfold lead3
    split
    · repeat' split
      all_goals simp [Lead.more]
    · split <;> simp [Lead.more]
    · exact Nat.le_refl 0
  have h4 : (lead4 first rest).more ≤ rest.length := by
    unfold lead4
    split
    · repeat' split
      all_goals simp [Lead.more]
    · repeat' split
      all_goals simp [Lead.more]
    · split <;> simp [Lead.more]
    · exact Nat.le_refl 0
  unfold lead
  dsimp only
  repeat' split
  all_goals first | assumption | exact Nat.zero_le _

/-- The same wherever the decoder is, by induction on the bytes that are left. -/
theorem decodeLossyFrom_concat {b : UInt8} (hb : b.toNat < 0x80) (bytes : Bytes) {skip : Nat}
    (hskip : skip ≤ bytes.length) (done : List Char) :
    decodeLossyFrom done skip (bytes ++ [b]) =
      decodeLossyFrom done skip bytes ++ [Char.ofNat b.toNat] := by
  -- The bytes that are skipped belong to a sequence before them and are all there, so that the
  -- byte at the end is always read on its own.
  induction bytes generalizing done skip with
  | nil =>
    have hlead : lead b [] = .scalar (Char.ofNat b.toNat) 0 := if_pos hb
    obtain rfl := Nat.le_zero.mp hskip
    show decodeLossyFrom done 0 [b] = done.reverse ++ [Char.ofNat b.toNat]
    rw [decodeLossyFrom, hlead]
    exact List.reverse_cons
  | cons first bytes ih =>
    cases skip with
    | succ skip => exact ih (Nat.le_of_succ_le_succ hskip) done
    | zero =>
      have hmore := more_lead_le first bytes
      rw [List.cons_append, decodeLossyFrom, decodeLossyFrom, lead_concat hb]
      cases hlead : lead first bytes with
      | scalar c more =>
        rw [hlead] at hmore
        exact ih hmore (c :: done)
      | damage more =>
        rw [hlead] at hmore
        exact ih hmore (replacement :: done)

/-- A byte below 128 behind other bytes is a character of its own, even if those break off within
one. -/
theorem decodeLossy_concat {b : UInt8} (hb : b.toNat < 0x80) (bytes : Bytes) :
    decodeLossy (bytes ++ [b]) = decodeLossy bytes ++ [Char.ofNat b.toNat] :=
  decodeLossyFrom_concat hb bytes (Nat.zero_le _) []

end Utf8

namespace SolverRecord

/-! ## White space at the end of a line -/

section Blank

variable {format : LogFormat} {c : Char} (hblank : Text.isBlank c = true)

include hblank

/-- White space behind a value is no part of the number at its start. -/
theorem assign_concat (r : SolverRecord) (key value : List Char) :
    r.assign key (value ++ [c]) = r.assign key value := by
  unfold assign
  rw [Text.trim_concat hblank]

/-- So white space behind a piece does not change what the piece assigns. -/
theorem enter_concat (r : SolverRecord) (piece : List Char) :
    r.enter (piece ++ [c]) = r.enter piece := by
  have hsign : c ≠ '=' := by
    rintro rfl
    exact absurd hblank (by decide)
  rw [enter, enter, Text.splitFirst?_concat hsign]
  cases Text.splitFirst? '=' piece with
  | none => rfl
  | some parts => exact assign_concat hblank r _ _

/-- Only the last piece has the white space at the end of the body behind it. -/
theorem foldl_enter_concat (r : SolverRecord) (body : List Char) :
    (Text.pieces ',' (body ++ [c])).foldl enter r = (Text.pieces ',' body).foldl enter r := by
  have hcomma : c ≠ ',' := by
    rintro rfl
    exact absurd hblank (by decide)
  obtain ⟨front, last, hbody, hconcat⟩ := Text.exists_pieces_concat hcomma body
  rw [hbody, hconcat, List.foldl_concat, List.foldl_concat, enter_concat hblank]

/-- A body that a bracket closes is the same; one that goes on to the end is longer. White space is
no bracket, so it neither opens a body nor closes one. -/
theorem body?_concat (text : List Char) : body? (text ++ [c]) = body? text ∨
    ∃ body, body? text = some body ∧ body? (text ++ [c]) = some (body ++ [c]) := by
  induction text with
  | nil =>
    have hplain : closer? c = none := by
      unfold closer?
      split <;> first | rfl | exact absurd hblank (by decide)
    have hbody : body? [c] = none := by
      rw [body?, hplain]
      rfl
    exact .inl hbody
  | cons d text ih =>
    rw [List.cons_append, body?, body?]
    cases hclose : closer? d with
    | none => exact ih
    | some close =>
      have hne : c ≠ close := by
        rintro rfl
        unfold closer? at hclose
        split at hclose <;> cases hclose <;> exact absurd hblank (by decide)
      simp only [List.takeWhile_append]
      split
      next hall =>
        have hlast : [c].takeWhile (fun x => decide (x ≠ close)) = [c] :=
          List.takeWhile_cons_of_pos (decide_eq_true hne)
        refine .inr ⟨_, rfl, ?_⟩
        rw [hlast, (List.takeWhile_prefix _).eq_of_length hall]
      next => exact .inl rfl

/-- White space at the end of a line that is no part of a marker makes no difference. -/
theorem ofLine?_concat (hcomponent : c ∉ format.component.toList)
    (hrecord : c ∉ format.record.toList) (line : List Char) (number : Nat) :
    ofLine? format (line ++ [c]) number = ofLine? format line number := by
  have hhas : Text.hasMarker format.component.toList (line ++ [c]) =
      Text.hasMarker format.component.toList line := by
    rw [Bool.eq_iff_iff, Text.hasMarker_iff, Text.hasMarker_iff, Text.isInfix_concat_iff hcomponent]
  rw [ofLine?, ofLine?, hhas, Text.splitMarker?_concat hrecord, Option.map_map]
  congr 2
  funext ⟨before, after⟩
  rcases body?_concat hblank after with heq | ⟨body, hbody, hconcat⟩
  · simp only [Function.comp_apply, heq]
  · simp only [Function.comp_apply, hbody, hconcat]
    exact foldl_enter_concat hblank _ body

end Blank

/-! ## Whole logs -/

/-- The log with a carriage return before every line feed. -/
def withReturns (log : Bytes) : Bytes :=
  log.flatMap fun b => if b = 0x0A then [0x0D, 0x0A] else [b]

/-- All lines but the last one get a carriage return. -/
theorem exists_pieces_withReturns (log : Bytes) : ∃ front last,
    Text.pieces 0x0A log = front ++ [last] ∧
      Text.pieces 0x0A (withReturns log) = front.map (· ++ [0x0D]) ++ [last] := by
  induction log with
  | nil => exact ⟨[], [], rfl, rfl⟩
  | cons b log ih =>
    obtain ⟨front, last, hlog, hreturns⟩ := ih
    rw [withReturns, List.flatMap_cons, ← withReturns, Text.pieces_cons, hlog]
    by_cases hb : b = 0x0A
    · refine ⟨[] :: front, last, by rw [if_pos hb]; rfl, ?_⟩
      rw [if_pos hb, List.cons_append, Text.pieces_cons, if_neg (by decide), List.singleton_append,
        Text.pieces_cons, if_pos rfl, hreturns]
      rfl
    · rw [if_neg hb, if_neg hb, List.singleton_append, Text.pieces_cons, if_neg hb, hreturns]
      cases front with
      | nil => exact ⟨[], b :: last, rfl, rfl⟩
      | cons line front => exact ⟨(b :: line) :: front, last, rfl, rfl⟩

variable {format : LogFormat}

/-- A return at the end of each line changes no record. The markers must have none themselves, or
else they might end in it. -/
theorem ofLines_map_return (hcomponent : '\r' ∉ format.component.toList)
    (hrecord : '\r' ∉ format.record.toList) (n : Nat) (lines : List Bytes) :
    ofLines format n (lines.map (· ++ [0x0D])) = ofLines format n lines := by
  induction lines generalizing n with
  | nil => rfl
  | cons line lines ih =>
    have hline : Utf8.decodeLossy (line ++ [0x0D]) = Utf8.decodeLossy line ++ ['\r'] :=
      Utf8.decodeLossy_concat (by decide) line
    rw [List.map_cons, ofLines_cons, ofLines_cons, hline,
      ofLine?_concat (by decide) hcomponent hrecord, ih]

/-- The way in which lines end makes no difference to the records, nor to their lines. The return
stays at the end of its line, where it is white space to every reader of the line. -/
theorem ofLog_withReturns (hcomponent : '\r' ∉ format.component.toList)
    (hrecord : '\r' ∉ format.record.toList) (log : Bytes) :
    ofLog format (withReturns log) = ofLog format log := by
  obtain ⟨front, last, hlog, hreturns⟩ := exists_pieces_withReturns log
  rw [ofLog_eq_ofLines_terminated, ofLog_eq_ofLines_terminated, Text.terminated_of_pieces hlog,
    Text.terminated_of_pieces hreturns, ofLines_append, ofLines_append,
    ofLines_map_return hcomponent hrecord, List.length_map]

/-- A line that breaks off inside a sequence, and a record that no bracket closes. -/
def unclosedLog : Bytes :=
  damagedLine ++ 0x0A :: (Utf8.encode "TetriSchedScheduler INFO took 7µs to solve " ++
    Utf8.encode "SolverSolution<numSolutions=2, numVariables=12" ++ [0x0A])

/-- A record whose bracket is not closed goes on to the end of the line, and the return there is no
part of its last number. -/
theorem unclosedLog_returned :
    '\r' ∉ LogFormat.standard.component.toList ∧ '\r' ∉ LogFormat.standard.record.toList ∧
      withReturns unclosedLog ≠ unclosedLog ∧
      ofLog .standard (withReturns unclosedLog) =
        [{ line := 2, totalTime := some (seconds 7), solutionCount := some 2,
           variableCount := some 12 }] := by
  have hcomponent : '\r' ∉ LogFormat.standard.component.toList := by decide
  have hrecord : '\r' ∉ LogFormat.standard.record.toList := by decide
  refine ⟨hcomponent, hrecord, by decide +kernel, ?_⟩
  rw [ofLog_withReturns hcomponent hrecord]
  decide +kernel

end SolverRecord

end ClusterTrace
