import ClusterTrace.Journal
import ClusterTrace.Number.Decimal
import ClusterTrace.Number.Digits
import ClusterTrace.Text.Blank
import ClusterTrace.Text.Split
import ClusterTrace.Text.Utf8

/-!
# Solver records

A scheduler logs each call of its solver on a line of free text. Such a line holds two markers: that
of the component that writes it, and that of the record. Behind the first record marker stand
assignments `key=value` between brackets, and before it the time of the whole call in the words
`took <N>µs to solve`. A number is the run of digits at the start of its place, if it has 64 bits.
Whatever a line lacks is absent from its record.
-/

namespace ClusterTrace

/-- The markers of the lines that hold a record. -/
structure LogFormat where
  /-- The component and level that write records. -/
  component : String
  record : String
deriving DecidableEq

/-- The markers that the scheduler writes. -/
def LogFormat.standard : LogFormat := ⟨"TetriSchedScheduler INFO", "SolverSolution"⟩

/-- What a line says about one call of the solver. -/
structure SolverRecord where
  /-- The line in the log, counted from one. -/
  line : Nat
  /-- The time inside the solver, in seconds. -/
  solverTime : Option Double := none
  /-- The time of the whole call, in seconds. -/
  totalTime : Option Double := none
  variableCount : Option Nat := none
  cachedVariableCount : Option Nat := none
  /-- The variables made for this call. -/
  uncachedVariableCount : Option Nat := none
  constraintCount : Option Nat := none
  /-- The constraints that were switched off. -/
  deactivatedConstraintCount : Option Nat := none
  nonZeroCoefficientCount : Option Nat := none
  /-- The number of solutions found. -/
  solutionCount : Option Nat := none
deriving DecidableEq

namespace SolverRecord

/-- The size of the problem: variables that were not cached and constraints together, if both are
known and the sum has 64 bits. -/
def complexity? (r : SolverRecord) : Option Nat :=
  r.uncachedVariableCount.bind fun v =>
    r.constraintCount.bind fun c => fitting (v + c)

/-- A number of microseconds in seconds. -/
def seconds (micros : Nat) : Double := Double.ofNat micros / Double.ofNat 1000000

/-- The number of 64 bits at the start of a text. -/
def leadingNumber? (s : List Char) : Option Nat := (leadingNumeral? s).bind fitting

/-! ## The parts of a line -/

/-- The bracket that closes what the given one opens. -/
def closer? : Char → Option Char
  | '<' => some '>'
  | '[' => some ']'
  | '\x7b' => some '\x7d'
  | '(' => some ')'
  | _ => none

/-- The text between the first opening bracket and the first closing one of its kind, or the end. -/
def body? : List Char → Option (List Char)
  | [] => none
  | c :: rest =>
    match closer? c with
    | some close => some (rest.takeWhile (· ≠ close))
    | none => body? rest

/-- The number of microseconds that a call took by the words before its record. -/
def tookMicros? (before : List Char) : Option Nat :=
  (Text.splitMarker? "took ".toList before).bind fun (_, rest) =>
    if Text.hasMarker " to solve".toList rest then leadingNumber? rest else none

/-- Writes an assignment into a record. A number that cannot be read makes the field absent again.
-/
def assign (r : SolverRecord) (key value : List Char) : SolverRecord :=
  let number := leadingNumber? (Text.trim value)
  match String.ofList (Text.trim key) with
  | "numVariables" => { r with variableCount := number }
  | "numCachedVariables" => { r with cachedVariableCount := number }
  | "numUncachedVariables" => { r with uncachedVariableCount := number }
  | "numConstraints" => { r with constraintCount := number }
  | "numDeactivatedConstraints" => { r with deactivatedConstraintCount := number }
  | "numNonZeroCoefficients" => { r with nonZeroCoefficientCount := number }
  | "numSolutions" => { r with solutionCount := number }
  | "solverTimeMicroseconds" => { r with solverTime := number.map seconds }
  | _ => r

/-- Writes a piece of the body into a record, if it is an assignment. -/
def enter (r : SolverRecord) (piece : List Char) : SolverRecord :=
  match Text.splitFirst? '=' piece with
  | some (key, value) => r.assign key value
  | none => r

/-- The record on a line, if the line holds both markers. -/
def ofLine? (format : LogFormat) (line : List Char) (number : Nat) : Option SolverRecord :=
  if Text.hasMarker format.component.toList line then
    (Text.splitMarker? format.record.toList line).map fun (before, after) =>
      let r : SolverRecord := { line := number, totalTime := (tookMicros? before).map seconds }
      match body? after with
      | some body => (Text.pieces ',' body).foldl enter r
      | none => r
  else none

/-! ## Whole logs -/

/-- The records of a log. Lines end at line feeds; bytes that are no text are read with replacement
characters. -/
def ofLog (format : LogFormat) (bytes : Bytes) : List SolverRecord :=
  ((Text.terminated 0x0A bytes).mapIdx fun i line =>
    ofLine? format (Utf8.decodeLossy line) (i + 1)).filterMap id

/-- What is reported while a log is read. -/
def logJournal (format : LogFormat) (bytes : Bytes) : List LogRecord :=
  [⟨.debug, s!"extracted {(ofLog format bytes).length} solver records"⟩]

end SolverRecord

end ClusterTrace
