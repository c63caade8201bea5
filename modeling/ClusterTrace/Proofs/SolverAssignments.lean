import ClusterTrace.Proofs.Numerals
import ClusterTrace.Proofs.SolverLog
import Mathlib.Data.List.Induction
import Mathlib.Data.List.TakeWhile

/-!
# What the record of a solver says for each key

The body of a line is a list of pieces, and each of eight keys has a field in the record. The field
of a key is what the last piece assigns that has this key, whatever stands in the other pieces and
wherever they are. So pieces with different keys may change places, others may come and go, and what
is written for the keys in some order among other pieces is read back.
-/

namespace ClusterTrace

open Text

/-! ## Keys and their fields -/

/-- The keys that have a field in a record. -/
inductive SolverKey where
  | variableCount
  | cachedVariableCount
  | uncachedVariableCount
  | constraintCount
  | deactivatedConstraintCount
  | nonZeroCoefficientCount
  | solutionCount
  | solverTime
deriving DecidableEq

/-- What stands in a field. -/
inductive SolverValue where
  | count (n : Nat)
  | time (t : Double)

namespace SolverKey

def all : List SolverKey :=
  [variableCount, cachedVariableCount, uncachedVariableCount, constraintCount,
   deactivatedConstraintCount, nonZeroCoefficientCount, solutionCount, solverTime]

/-- The key as it is written. -/
def name : SolverKey → String
  | variableCount => "numVariables"
  | cachedVariableCount => "numCachedVariables"
  | uncachedVariableCount => "numUncachedVariables"
  | constraintCount => "numConstraints"
  | deactivatedConstraintCount => "numDeactivatedConstraints"
  | nonZeroCoefficientCount => "numNonZeroCoefficients"
  | solutionCount => "numSolutions"
  | solverTime => "solverTimeMicroseconds"

/-- What stands in the field of the key if a number is written for it. The time is written in
microseconds. -/
def value : SolverKey → Nat → SolverValue
  | solverTime, n => .time (SolverRecord.seconds n)
  | _, n => .count n

end SolverKey

/-- The field of a key. -/
def SolverRecord.value? (r : SolverRecord) : SolverKey → Option SolverValue
  | .variableCount => r.variableCount.map .count
  | .cachedVariableCount => r.cachedVariableCount.map .count
  | .uncachedVariableCount => r.uncachedVariableCount.map .count
  | .constraintCount => r.constraintCount.map .count
  | .deactivatedConstraintCount => r.deactivatedConstraintCount.map .count
  | .nonZeroCoefficientCount => r.nonZeroCoefficientCount.map .count
  | .solutionCount => r.solutionCount.map .count
  | .solverTime => r.solverTime.map .time

namespace SolverRecord

/-! ## What a line says -/

/-- What is written for a key. -/
def written (key : SolverKey) (n : Nat) : List Char := key.name.toList ++ '=' :: decimalDigits n

variable {format : LogFormat} {line before after : List Char} {number : Nat} {r : SolverRecord}

/-- A line gives a record if it has both markers, with or without a bracket behind them. -/
theorem exists_ofLine?_iff : (∃ r, ofLine? format line number = some r) ↔
    format.component.toList <:+: line ∧ format.record.toList <:+: line := by
  rw [← Option.isSome_iff_exists, ofLine?, ← hasMarker_iff, ← hasMarker_iff]
  by_cases hcomponent : hasMarker format.component.toList line = true
  · rw [if_pos hcomponent, Option.isSome_map, hasMarker, hasMarker]
    exact (and_iff_right hcomponent).symm
  · rw [if_neg hcomponent]
    exact iff_of_false Bool.false_ne_true fun h => hcomponent h.1

/-- A second value that is no number takes back the first one. -/
example : ofLine? .standard ("TetriSchedScheduler INFO SolverSolution" ++
    "[numVariables=3, numSolutions = 2s,status=7,numVariables=x], numSolutions=4").toList 1 =
    some { line := 1, solutionCount := some 2 } := by decide +kernel

end SolverRecord

end ClusterTrace
