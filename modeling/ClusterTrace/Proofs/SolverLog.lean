import ClusterTrace.Solver.Record
import ClusterTrace.Proofs.TextCuts
import Mathlib.Data.List.Pairwise
import Mathlib.Data.Option.Basic

/-!
# A log is read line by line

A line feed cuts a log in two parts whose lines are the lines of the whole. So the records of a log
are those of its lines, in their order, and a line has no effect on the record of another one except
that it counts. The last line of a log counts even if no line feed ends it, and an empty one never
counts; an empty line has no record, so this makes no difference.
-/

namespace ClusterTrace

/-! ## The number of a line -/

namespace SolverRecord

variable {format : LogFormat}

/-- The same record on another line. -/
def atLine (n : Nat) (r : SolverRecord) : SolverRecord := { r with line := n }

/-- The same record with some lines above the log. -/
def below (n : Nat) (r : SolverRecord) : SolverRecord := r.atLine (n + r.line)

/-- Lines above a log that stands below others add up. -/
theorem map_below_below (n m : Nat) (records : List SolverRecord) :
    (records.map (below m)).map (below n) = records.map (below (n + m)) := by
  rw [List.map_map]
  congr 1
  funext r
  show r.atLine (n + (m + r.line)) = r.atLine (n + m + r.line)
  rw [Nat.add_assoc]

theorem assign_atLine (n : Nat) (r : SolverRecord) (key value : List Char) :
    (r.atLine n).assign key value = (r.assign key value).atLine n := by
  unfold assign
  split <;> rfl

theorem enter_atLine (n : Nat) (r : SolverRecord) (piece : List Char) :
    (r.atLine n).enter piece = (r.enter piece).atLine n := by
  unfold enter
  split
  · exact assign_atLine n r _ _
  · rfl

/-- The pieces of a body are entered without the number of the line. The induction is on the
pieces. -/
theorem foldl_enter_atLine (n : Nat) (r : SolverRecord) (pieces : List (List Char)) :
    pieces.foldl enter (r.atLine n) = (pieces.foldl enter r).atLine n := by
  induction pieces generalizing r with
  | nil => rfl
  | cons piece pieces ih => rw [List.foldl_cons, enter_atLine, ih, List.foldl_cons]

/-- The number of a line is written into its record and used for nothing else. -/
theorem ofLine?_atLine (line : List Char) (n : Nat) :
    ofLine? format line n = (ofLine? format line 0).map (atLine n) := by
  unfold ofLine?
  by_cases hcomponent : Text.hasMarker format.component.toList line = true
  · rw [if_pos hcomponent, if_pos hcomponent, Option.map_map]
    congr 1
    funext ⟨before, after⟩
    simp only [Function.comp_apply]
    cases body? after with
    | none => rfl
    | some body =>
      exact foldl_enter_atLine n ⟨0, none, (tookMicros? before).map seconds, none, none, none, none,
        none, none, none⟩ (Text.pieces ',' body)
  · rw [if_neg hcomponent, if_neg hcomponent]
    rfl

theorem line_of_mem_ofLine? {line : List Char} {n : Nat} {r : SolverRecord}
    (h : r ∈ ofLine? format line n) : r.line = n := by
  rw [ofLine?_atLine] at h
  obtain ⟨r', -, rfl⟩ := Option.map_eq_some_iff.mp h
  rfl

/-- Lines above another one move its record down. -/
theorem ofLine?_add (line : List Char) (n m : Nat) :
    (ofLine? format line (n + m)).toList = (ofLine? format line m).toList.map (below n) := by
  rw [ofLine?_atLine, ofLine?_atLine line m]
  cases ofLine? format line 0 with
  | none => rfl
  | some r => rfl

/-- An empty line has no marker. -/
theorem ofLine?_nil (marked : format.component ≠ "" ∨ format.record ≠ "") (n : Nat) :
    ofLine? format [] n = none := by
  have hmarker : ∀ marker : String, marker ≠ "" → Text.splitMarker? marker.toList [] = none := by
    intro marker hne
    cases hchars : marker.toList with
    | nil => exact absurd (String.toList_eq_nil_iff.mp hchars) hne
    | cons m rest => rfl
  unfold ofLine?
  rcases marked with hcomponent | hrecord
  · rw [Text.hasMarker, hmarker _ hcomponent]
    rfl
  · rw [hmarker _ hrecord]
    exact ite_self _

/-! ## The records of lines -/

/-- The records of lines that stand below `n` others. -/
def ofLines (format : LogFormat) (n : Nat) (lines : List Bytes) : List SolverRecord :=
  (lines.mapIdx fun i line => ofLine? format (Utf8.decodeLossy line) (n + i + 1)).filterMap id

/-- The lines are read one by one, and those of the second part are numbered on from the first. -/
theorem ofLines_append (n : Nat) (a b : List Bytes) :
    ofLines format n (a ++ b) = ofLines format n a ++ ofLines format (n + a.length) b := by
  unfold ofLines
  rw [List.mapIdx_append, List.filterMap_append]
  congr 3
  funext i line
  rw [Nat.add_assoc n a.length, Nat.add_comm a.length]

theorem ofLines_cons (n : Nat) (line : Bytes) (lines : List Bytes) :
    ofLines format n (line :: lines) =
      (ofLine? format (Utf8.decodeLossy line) (n + 1)).toList ++ ofLines format (n + 1) lines := by
  rw [← List.singleton_append, ofLines_append]
  rfl

/-- Lines that are numbered from further down give the same records, moved down. -/
theorem ofLines_add (n m : Nat) (lines : List Bytes) :
    ofLines format (n + m) lines = (ofLines format m lines).map (below n) := by
  induction lines generalizing m with
  | nil => rfl
  | cons line lines ih =>
    rw [ofLines_cons, ofLines_cons, List.map_append, Nat.add_assoc, ofLine?_add, ih]

/-- The lines are numbered from the next number on, so no record has an earlier one. -/
theorem lt_line_of_mem_ofLines {n : Nat} {lines : List Bytes} {r : SolverRecord}
    (h : r ∈ ofLines format n lines) : n < r.line := by
  induction lines generalizing n with
  | nil => exact (List.not_mem_nil h).elim
  | cons line lines ih =>
    rw [ofLines_cons, List.mem_append] at h
    rcases h with hfirst | hrest
    · have hline := line_of_mem_ofLine? (Option.mem_toList.mp hfirst)
      omega
    · have hlow := ih hrest
      omega

/-- The records stand in the order of their lines, and no line has two. -/
theorem pairwise_ofLines (n : Nat) (lines : List Bytes) :
    (ofLines format n lines).Pairwise (·.line < ·.line) := by
  induction lines generalizing n with
  | nil => exact .nil
  | cons line lines ih =>
    rw [ofLines_cons]
    cases hrecord : ofLine? format (Utf8.decodeLossy line) (n + 1) with
    | none => exact ih (n + 1)
    | some r =>
      refine List.pairwise_cons.mpr ⟨fun r' hr' => ?_, ih (n + 1)⟩
      rw [line_of_mem_ofLine? hrecord]
      exact lt_line_of_mem_ofLines hr'

/-! ## Whole logs -/

/-- The lines of a log are numbered from one on. What stands behind the last line feed is a line if
it is not empty. -/
theorem ofLog_eq_ofLines_terminated (bytes : Bytes) :
    ofLog format bytes = ofLines format 0 (Text.terminated 0x0A bytes) := by
  unfold ofLog ofLines
  simp only [Nat.zero_add]

/-- An empty line at the end makes no difference. -/
theorem ofLog_eq_ofLines (marked : format.component ≠ "" ∨ format.record ≠ "") (bytes : Bytes) :
    ofLog format bytes = ofLines format 0 (Text.pieces 0x0A bytes) := by
  rw [ofLog_eq_ofLines_terminated]
  rcases Text.pieces_eq_terminated (0x0A : UInt8) bytes with heq | heq
  · rw [heq]
  · have hempty : Utf8.decodeLossy [] = [] := rfl
    rw [heq, ofLines_append, ofLines_cons, hempty, ofLine?_nil marked]
    exact (List.append_nil _).symm

/-- Each line of a log stands for itself. -/
structure LineByLine (format : LogFormat) : Prop where
  /-- A line feed cuts a log in two, and the second part counts its lines behind those of the
  first. -/
  append : ∀ a b : Bytes, ofLog format (a ++ 0x0A :: b) =
    ofLog format a ++ (ofLog format b).map (below (1 + a.count 0x0A))
  /-- Whatever bytes a line has, the records of the others are those of the log without it. -/
  replace : ∀ before line after : Bytes, (before = [] ∨ before.getLast? = some 0x0A) →
    0x0A ∉ line → (after = [] ∨ after.head? = some 0x0A) →
    ofLog format (before ++ line ++ after) = ofLog format before ++
      (ofLine? format (Utf8.decodeLossy line) (1 + before.count 0x0A)).toList ++
      (ofLog format after.tail).map (below (1 + before.count 0x0A))
  increasing : ∀ bytes : Bytes, (ofLog format bytes).Pairwise (·.line < ·.line)

/-- A line feed cuts a log: the records of the second part are those it has as a log of its own,
moved down by the lines above. -/
theorem ofLog_append (marked : format.component ≠ "" ∨ format.record ≠ "") (a b : Bytes) :
    ofLog format (a ++ 0x0A :: b) =
      ofLog format a ++ (ofLog format b).map (below (1 + a.count 0x0A)) := by
  have hcount : 0 + (Text.pieces 0x0A a).length = (1 + a.count 0x0A) + 0 := by
    rw [Text.length_pieces]
    omega
  rw [ofLog_eq_ofLines marked, ofLog_eq_ofLines marked a, ofLog_eq_ofLines marked b,
    Text.pieces_eq_splitOn, List.splitOn_append_cons_self, ← Text.pieces_eq_splitOn,
    ← Text.pieces_eq_splitOn, ofLines_append, hcount, ofLines_add]

theorem ofLog_line (marked : format.component ≠ "" ∨ format.record ≠ "") {line : Bytes}
    (h : 0x0A ∉ line) : ofLog format line = (ofLine? format (Utf8.decodeLossy line) 1).toList := by
  rw [ofLog_eq_ofLines marked, Text.pieces_eq_splitOn, List.splitOn_eq_singleton h, ofLines_cons]
  exact List.append_nil _

/-- Each line of a log stands for itself, whatever bytes it holds. An empty line has to lack a
marker, since a log may end in one or not; so one marker must not be empty. -/
theorem lineByLine (marked : format.component ≠ "" ∨ format.record ≠ "") : LineByLine format := by
  constructor
  case append => exact ofLog_append marked
  case replace =>
    intro before line after hbefore hline hafter
    -- The line and what follows it, as a log of their own.
    have hrest : ofLog format (line ++ after) =
        (ofLine? format (Utf8.decodeLossy line) 1).toList ++
          (ofLog format after.tail).map (below 1) := by
      rcases hafter with rfl | hafter
      · rw [List.append_nil, ofLog_line marked hline]
        exact (List.append_nil _).symm
      · obtain ⟨rest, rfl⟩ := List.head?_eq_some_iff.mp hafter
        rw [ofLog_append marked, ofLog_line marked hline, List.count_eq_zero.mpr hline]
        rfl
    rcases hbefore with rfl | hbefore
    · rw [List.nil_append, hrest]
      rfl
    · obtain ⟨lines, rfl⟩ := List.getLast?_eq_some_iff.mp hbefore
      have hcount : 1 + (lines ++ [0x0A]).count (0x0A : UInt8) = 1 + lines.count 0x0A + 1 := by
        rw [List.count_append, ← Nat.add_assoc]
        rfl
      have hbeforeLog : ofLog format (lines ++ [0x0A]) = ofLog format lines := by
        rw [ofLog_append marked]
        exact List.append_nil _
      have hsplit : lines ++ [0x0A] ++ line ++ after = lines ++ 0x0A :: (line ++ after) := by simp
      rw [hsplit, ofLog_append marked, hrest, hbeforeLog, hcount, ofLine?_add,
        ← map_below_below (1 + lines.count 0x0A) 1, List.map_append, List.append_assoc]
  case increasing =>
    intro bytes
    rw [ofLog_eq_ofLines marked]
    exact pairwise_ofLines 0 _

/-- A line of bytes that are no text, with a bracket that nothing closes. -/
def damagedLine : Bytes := [0xFF, 0x3C, 0xE2, 0x82]

def solvedLine : Bytes :=
  Utf8.encode "[TetriSchedScheduler INFO] SolverSolution<numVariables=12>"

/-- A line of broken bytes gives no record and does not disturb the one below it. -/
theorem damagedLine_harmless :
    ofLog .standard (damagedLine ++ 0x0A :: solvedLine) =
        [{ line := 2, variableCount := some 12 }] ∧
      (ofLog .standard (solvedLine ++ 0x0A :: solvedLine)).Pairwise (·.line < ·.line) := by
  have hlines : LineByLine .standard := lineByLine (.inl (by decide))
  have hdamaged : ofLog .standard damagedLine = [] := by decide +kernel
  have hsolved : ofLog .standard solvedLine = [{ line := 1, variableCount := some 12 }] := by
    decide +kernel
  constructor
  · rw [hlines.append, hdamaged, hsolved]
    rfl
  · exact hlines.increasing _

end SolverRecord

end ClusterTrace
