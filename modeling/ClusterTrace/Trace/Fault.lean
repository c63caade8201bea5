import ClusterTrace.Delimited.Reader
import ClusterTrace.Number.Digits
import ClusterTrace.Text.Quoted

/-!
# What can be wrong with a trace

The faults that stop the analysis of a trace, each with the line of the row where it was found, and
their wording.
-/

namespace ClusterTrace

/-- Why a row does not fit its place in the trace. -/
inductive RowFault where
  /-- The row is no text. -/
  | undecodable (cause : Delimited.Undecodable)
  /-- A resource name without a quantity. -/
  | unpairedResource (kind : String)
  /-- A row about a task graph that no earlier row released. -/
  | graphNotReleased (kind graph : String)
  /-- A task is placed while it runs. -/
  | alreadyRunning (task : String)
  /-- A task ends that does not run. -/
  | notRunning (task : String)
  | endsBeforePlacement (task : String) (completion placement : Nat)
deriving DecidableEq

def RowFault.message : RowFault → String
  | .undecodable cause => cause.message
  | .unpairedResource kind => s!"{kind} has an unpaired resource field"
  | .graphNotReleased kind graph => s!"{kind} for unknown task graph {graph}"
  | .alreadyRunning task => s!"task {task} placed while already running"
  | .notRunning task => s!"task {task} has no running placement"
  | .endsBeforePlacement task completion placement =>
    s!"task {task} completes at {completion} before its placement at {placement}"

/-- A fault that stops the analysis of a trace. -/
inductive TraceFault where
  /-- A row does not start with a tick. -/
  | invalidTick (line : Nat) (value : String)
  /-- A row has nothing after its tick. -/
  | missingKind (line : Nat)
  /-- A row is too short. -/
  | missingField (line : Nat) (kind : String) (index : Nat) (field : String)
  /-- A field does not hold the number it should. -/
  | invalidNumber (line : Nat) (kind field value : String)
  /-- A row does not fit its place. -/
  | malformedRow (line : Nat) (fault : RowFault)
  /-- A task belongs to a task graph that the trace never releases. -/
  | unknownGraph (task graph : String)
  /-- A task uses a resource that no worker pool has. -/
  | unknownResource (task resource : String)
deriving DecidableEq

def TraceFault.message : TraceFault → String
  | .invalidTick line value => s!"line {line}: invalid tick {Text.quoted value}"
  | .missingKind line => s!"line {line}: row has no event kind"
  | .missingField line kind index field =>
    s!"line {line}: {kind} row is missing field {index} ({field})"
  | .invalidNumber line kind field value =>
    s!"line {line}: {kind} field {field} is not numeric: {Text.quoted value}"
  | .malformedRow line fault => s!"line {line}: {fault.message}"
  | .unknownGraph task graph => s!"task {task} references unknown task graph {graph}"
  | .unknownResource task resource =>
    s!"task {task} uses resource {resource} which no worker pool declares"

end ClusterTrace
