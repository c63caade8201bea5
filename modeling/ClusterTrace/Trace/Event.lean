import ClusterTrace.Trace.Fault
import ClusterTrace.Number.Decimal

/-!
# Events

A row of a trace is an event: a tick, a kind and parameters. The kinds that the analysis knows are
an `EventKind`; all other rows are kept and pass by.
-/

namespace ClusterTrace

/-- The kinds of rows with a meaning for the analysis. -/
inductive EventKind where
  | workerPool
  | graphRelease
  | graphFinished
  | graphCancel
  | missedDeadline
  | taskRelease
  | taskPlacement
  | taskFinished
  | taskPreempt
  | schedulerStart
  | schedulerFinished
  | logStats
  | simulatorEnd
deriving DecidableEq

namespace EventKind

def all : List EventKind :=
  [workerPool, graphRelease, graphFinished, graphCancel, missedDeadline, taskRelease,
   taskPlacement, taskFinished, taskPreempt, schedulerStart, schedulerFinished, logStats,
   simulatorEnd]

def name : EventKind → String
  | workerPool => "WORKER_POOL"
  | graphRelease => "TASK_GRAPH_RELEASE"
  | graphFinished => "TASK_GRAPH_FINISHED"
  | graphCancel => "TASK_GRAPH_CANCEL"
  | missedDeadline => "MISSED_TASK_GRAPH_DEADLINE"
  | taskRelease => "TASK_RELEASE"
  | taskPlacement => "TASK_PLACEMENT"
  | taskFinished => "TASK_FINISHED"
  | taskPreempt => "TASK_PREEMPT"
  | schedulerStart => "SCHEDULER_START"
  | schedulerFinished => "SCHEDULER_FINISHED"
  | logStats => "LOG_STATS"
  | simulatorEnd => "SIMULATOR_END"

/-- The kind of a name, if it has a meaning for the analysis. -/
def ofName? (name : String) : Option EventKind := all.find? fun kind => kind.name = name

theorem ofName?_name (kind : EventKind) : ofName? kind.name = some kind := by
  cases kind <;> decide

end EventKind

/-- One row of a trace. -/
structure Event where
  /-- The line of the row in the trace, counted from one. -/
  line : Nat
  /-- The time of the event. -/
  tick : Nat
  /-- The name of the kind of event. -/
  kind : String
  /-- The fields after the kind. -/
  params : List String
deriving DecidableEq

namespace Event

def is (e : Event) (kind : EventKind) : Bool := e.kind = kind.name

/-- The kind of the event, if it has a meaning for the analysis. -/
def kind? (e : Event) : Option EventKind := EventKind.ofName? e.kind

/-- The fault of a row that lacks a field. -/
def missing (e : Event) (index : Nat) (field : String) : TraceFault :=
  .missingField e.line e.kind index field

/-- The fault of a row with a field that is no proper number. -/
def notNumeric (e : Event) (field value : String) : TraceFault :=
  .invalidNumber e.line e.kind field value

/-- The fault of a row that does not fit its place. -/
def malformed (e : Event) (fault : RowFault) : TraceFault := .malformedRow e.line fault

/-- The parameter at an index; `field` names it in the fault. -/
def param (e : Event) (index : Nat) (field : String) : Except TraceFault String :=
  match e.params[index]? with
  | some value => .ok value
  | none => .error (e.missing index field)

/-- Reads a value of the event as a number. -/
def parse {α : Type} (e : Event) (read : String → Option α) (value field : String) :
    Except TraceFault α :=
  match read value with
  | some x => .ok x
  | none => .error (e.notNumeric field value)

def parseParam {α : Type} (e : Event) (read : String → Option α) (index : Nat) (field : String) :
    Except TraceFault α :=
  (e.param index field).bind fun value => e.parse read value field

/-- The last parameter as a number. -/
def parseLast {α : Type} (e : Event) (read : String → Option α) (field : String) :
    Except TraceFault α :=
  match e.params.getLast? with
  | some value => e.parse read value field
  | none => .error (e.missing 0 field)

def paramsFrom (e : Event) (index : Nat) : List String := e.params.drop index

end Event

end ClusterTrace
