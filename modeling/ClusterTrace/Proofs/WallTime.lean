import ClusterTrace.Proofs.SolverAssignments
import ClusterTrace.Proofs.WholeNumbers

/-!
# The time that a line announces

Before its record a line says `took <N>µs to solve`. The number is read behind the first `took ` of
the line, wherever the rest of these words stands. So it is the one that is announced if the line
says `took ` nowhere before that, and else it is what the earlier place says, or nothing.
-/

namespace ClusterTrace

open Text

namespace SolverRecord

/-- The micro sign, or what a damaged one is read as. -/
def IsMicro (c : Char) : Prop := c = '\u00B5' ∨ c = Utf8.replacement

instance (c : Char) : Decidable (IsMicro c) := inferInstanceAs (Decidable (_ ∨ _))

/-- The word that the number follows. -/
def tookWord : List Char := "took ".toList

/-- Behind `front` the text says that a call took so many microseconds. -/
def Announces (text front : List Char) (n : Nat) : Prop := ∃ digits unit back,
  text = front ++ tookWord ++ (digits ++ unit :: ("s to solve".toList ++ back)) ∧
    IsNumeral digits n ∧ IsMicro unit

variable {format : LogFormat} {text line before after front start rest : List Char} {n number : Nat}
  {r : SolverRecord}

/-! ## Words and digits -/

theorem isDigit_of_isMicro {c : Char} (h : IsMicro c) : c.isDigit = false := by
  rcases h with rfl | rfl <;> rfl

/-- A letter ends a number, as the end of a text does. -/
theorem leadingNumber?_append_word {c : Char} (hc : c.isDigit = false) (text rest : List Char) :
    leadingNumber? (text ++ c :: rest) = leadingNumber? text := by
  have htake : (text ++ c :: rest).takeWhile Char.isDigit = text.takeWhile Char.isDigit := by
    rw [List.takeWhile_append]
    split
    next hall =>
      rw [List.takeWhile_cons_of_neg (by simp [hc]), List.append_nil]
      exact ((List.takeWhile_prefix _).eq_of_length hall).symm
    next => rfl
  rw [leadingNumber?, leadingNumeral?, leadingNumber?, leadingNumeral?, htake]

theorem leadingNumber?_of_isNumeral {digits : List Char} (hdigits : IsNumeral digits n)
    (hbound : n < Nat.pow 2 64) : leadingNumber? digits = some n := by
  have hall : digits.takeWhile Char.isDigit = digits :=
    List.takeWhile_eq_self_iff.mpr hdigits.digits
  rw [leadingNumber?, leadingNumeral?, hall]
  exact numeral?_bind_fitting_eq_some_iff.mpr ⟨hdigits, hbound⟩

theorem tookMicros?_of_firstAt (hfirst : FirstAt tookWord text start rest)
    (hsolve : " to solve".toList <:+: rest) : tookMicros? text = leadingNumber? rest := by
  have hsplit : splitMarker? "took ".toList text = some (start, rest) :=
    splitMarker?_eq_some_iff.mpr hfirst
  rw [tookMicros?, hsplit, Option.bind_some]
  exact if_pos (hasMarker_iff.mpr hsolve)

theorem Announces.tookMicros?_of_not_isInfix (h : Announces text front n)
    (hbound : n < Nat.pow 2 64) (hfront : ¬ tookWord <:+: front) : tookMicros? text = some n := by
  obtain ⟨digits, unit, back, rfl, hdigits, hunit⟩ := h
  have hfirst : ∀ tail, FirstAt tookWord (front ++ tookWord ++ tail) front tail :=
    firstAt_of_not_isInfix (show 't' ∉ "ook ".toList by decide) hfront
  rw [SolverRecord.tookMicros?_of_firstAt (hfirst _) ⟨digits ++ [unit, 's'], back, by simp⟩]
  rw [leadingNumber?_append_word (isDigit_of_isMicro hunit)]
  exact leadingNumber?_of_isNumeral hdigits hbound

theorem Announces.tookMicros?_of_firstAt (h : Announces text front n)
    (hfront : FirstAt tookWord front start rest) : tookMicros? text = leadingNumber? rest := by
  obtain ⟨digits, unit, back, rfl, -, -⟩ := h
  have hfirst := hfront.append (tookWord ++ (digits ++ unit :: ("s to solve".toList ++ back)))
  rw [← List.append_assoc] at hfirst
  have hword : tookWord = 't' :: "ook ".toList := rfl
  rw [SolverRecord.tookMicros?_of_firstAt hfirst
    ⟨rest ++ tookWord ++ digits ++ [unit, 's'], back, by simp⟩, hword, List.cons_append]
  exact leadingNumber?_append_word rfl rest _

/-! ## The time of a record -/

theorem totalTime_enter (r : SolverRecord) (piece : List Char) :
    (r.enter piece).totalTime = r.totalTime := by
  unfold enter assign
  repeat' split
  all_goals rfl

theorem totalTime_foldl_enter (r : SolverRecord) (pieces : List (List Char)) :
    (pieces.foldl enter r).totalTime = r.totalTime := by
  induction pieces generalizing r with
  | nil => rfl
  | cons piece pieces ih => rw [List.foldl_cons, ih, totalTime_enter]

/-- The assignments of a line have no effect on its time. -/
theorem totalTime_of_ofLine? (hr : ofLine? format line number = some r)
    (hfirst : FirstAt format.record.toList line before after) :
    r.totalTime = (tookMicros? before).map seconds := by
  unfold ofLine? at hr
  split at hr
  next =>
    rw [splitMarker?_eq_some_iff.mpr hfirst, Option.map_some, Option.some.injEq] at hr
    rw [← hr]
    cases hbody : body? after with
    | none => simp only [hbody]
    | some body => simp only [hbody, totalTime_foldl_enter]
  next => cases hr

/-- A number with 53 bits is divided with one rounding. -/
theorem seconds_eq_ofRatio (hn : n ≤ Nat.pow 2 53) : seconds n = Double.ofRatio n 1000000 := by
  have hword : Nat.pow 2 53 ≤ Double.maxWord := by decide
  exact Double.ofNat_div_ofNat (hn.trans hword) (by decide) (Double.isShort_of_le hn)
    (Double.isShort_of_le (by decide)) (by decide)

/-- The time of a record is the one that its line announces if the line says `took ` nowhere before
that. Otherwise it is the number behind the first `took `, if there is one. -/
theorem ofLine?_totalTime (hcomponent : format.component.toList <:+: line)
    (hfirst : FirstAt format.record.toList line before after)
    (hannounces : Announces before front n)
    (hbound : n < Nat.pow 2 64) (number : Nat) :
    ∃ r, ofLine? format line number = some r ∧
      (¬ tookWord <:+: front → r.totalTime = some (seconds n) ∧
        (n ≤ Nat.pow 2 53 → r.totalTime = some (Double.ofRatio n 1000000))) ∧
      ∀ start rest, FirstAt tookWord front start rest →
        r.totalTime = (leadingNumber? rest).map seconds := by
  obtain ⟨r, hr⟩ := exists_ofLine?_iff.mpr ⟨hcomponent, before, after, hfirst.1.symm⟩
  have htime := totalTime_of_ofLine? hr hfirst
  refine ⟨r, hr, fun hfront => ?_, fun start rest hfront => ?_⟩
  · rw [hannounces.tookMicros?_of_not_isInfix hbound hfront, Option.map_some] at htime
    exact ⟨htime, fun hn => by rw [htime, seconds_eq_ofRatio hn]⟩
  · rw [htime, hannounces.tookMicros?_of_firstAt hfront]

/-- A line with both words in front of the number, and `took` without a blank before that. -/
def undertookLine : List Char :=
  "undertook: TetriSchedScheduler INFO took 9007199\u00B5s to solve, SolverSolution[took ]".toList

theorem undertookLine_totalTime : ∃ r, ofLine? .standard undertookLine 1 = some r ∧
    r.totalTime = some (Double.ofRatio 9007199 1000000) := by
  have hfirst : FirstAt LogFormat.standard.record.toList undertookLine
      "undertook: TetriSchedScheduler INFO took 9007199\u00B5s to solve, ".toList
      "[took ]".toList := splitMarker?_eq_some_iff.mp (by decide +kernel)
  have hannounces : Announces
      "undertook: TetriSchedScheduler INFO took 9007199\u00B5s to solve, ".toList
      "undertook: TetriSchedScheduler INFO ".toList 9007199 :=
    ⟨"9007199".toList, '\u00B5', ", ".toList, by decide +kernel,
      numeral?_eq_some_iff.mp (by decide +kernel), .inl rfl⟩
  have hfront : ¬ tookWord <:+: "undertook: TetriSchedScheduler INFO ".toList := by
    rw [← hasMarker_iff]
    decide +kernel
  obtain ⟨r, hr, hcorrect, -⟩ := ofLine?_totalTime (hasMarker_iff.mp (by decide +kernel)) hfirst
    hannounces (by decide) 1
  exact ⟨r, hr, (hcorrect hfront).2 (by decide)⟩

/-- A line that also says how many retries it took. -/
def retriedLine : List Char :=
  "TetriSchedScheduler INFO: took 3 retries, took 52512\u00B5s to solve SolverSolution<>".toList

/-- The number of microseconds is announced at the start of the text. -/
def isAnnouncement (text : List Char) : Bool :=
  match dropMarker? tookWord text with
  | none => false
  | some rest =>
    match rest.dropWhile Char.isDigit with
    | [] => false
    | unit :: rest => decide (IsMicro unit) && (dropMarker? "s to solve".toList rest).isSome

theorem Announces.isAnnouncement_drop (h : Announces text front n) :
    isAnnouncement (text.drop front.length) = true := by
  obtain ⟨digits, unit, back, rfl, hdigits, hunit⟩ := h
  have hword :
      dropMarker? tookWord (tookWord ++ (digits ++ unit :: ("s to solve".toList ++ back))) =
        some (digits ++ unit :: ("s to solve".toList ++ back)) := dropMarker?_eq_some_iff.mpr rfl
  have hdrop : (digits ++ unit :: ("s to solve".toList ++ back)).dropWhile Char.isDigit =
      unit :: ("s to solve".toList ++ back) := by
    rw [List.dropWhile_append_of_pos hdigits.digits,
      List.dropWhile_cons_of_neg (by simp [isDigit_of_isMicro hunit])]
  have hsolve : dropMarker? "s to solve".toList ("s to solve".toList ++ back) = some back :=
    dropMarker?_eq_some_iff.mpr rfl
  rw [List.append_assoc, List.drop_left, isAnnouncement, hword]
  simp only [hdrop, hsolve, hunit, decide_true, Option.isSome_some, Bool.and_self]

/-- The time is announced once, and another number is taken for it: the one behind the first of the
two words `took`. -/
theorem retriedLine_misread : ∃ before front after r,
    LogFormat.standard.component.toList <:+: retriedLine ∧
      FirstAt LogFormat.standard.record.toList retriedLine before after ∧
      Announces before front 52512 ∧ (∀ front' n, Announces before front' n → front' = front) ∧
      ofLine? .standard retriedLine 1 = some r ∧ r.totalTime = some (seconds 3) ∧
      seconds 3 ≠ seconds 52512 := by
  let front := "TetriSchedScheduler INFO: took 3 retries, ".toList
  let before := front ++ "took 52512\u00B5s to solve ".toList
  have hannounces : Announces before front 52512 :=
    ⟨"52512".toList, '\u00B5', [' '], by decide +kernel,
      numeral?_eq_some_iff.mp (by decide +kernel), .inl rfl⟩
  have honly : ∀ i < before.length + 1,
      isAnnouncement (before.drop i) = true → i = front.length := by
    decide +kernel
  refine ⟨before, front, "<>".toList, { line := 1, totalTime := some (seconds 3) },
    hasMarker_iff.mp (by decide +kernel), splitMarker?_eq_some_iff.mp (by decide +kernel),
    hannounces, ?_, by decide +kernel, rfl, by decide +kernel⟩
  intro front' n h
  have hdrop := h.isAnnouncement_drop
  obtain ⟨digits, unit, back, htext, -⟩ := h
  have hprefix : front' <+: before := ⟨_, by rw [htext, List.append_assoc]⟩
  have hlength := honly front'.length (Nat.lt_succ_of_le hprefix.length_le) hdrop
  have hfront : front <+: before := List.prefix_append front _
  rw [List.prefix_iff_eq_take.mp hprefix, hlength]
  exact (List.prefix_iff_eq_take.mp hfront).symm

end SolverRecord

end ClusterTrace
