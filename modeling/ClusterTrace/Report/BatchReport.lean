import ClusterTrace.Delimited.Writer
import ClusterTrace.Report.RunSummary

/-!
# Reports of batches

A report holds the summaries of the runs that were analysed and the faults of the others, each in
the order of the batch. It is written as a document, or as a table of the resources of all runs in
the order of the labels of the runs and the names of the resources.
-/

namespace ClusterTrace

/-- A run that could not be analysed. -/
structure RunFailure where
  /-- The directory of the run. -/
  dir : String
  error : String
deriving DecidableEq

structure BatchReport where
  runs : List RunSummary
  failures : List RunFailure

/-- A line of the table of resources. -/
structure UsageRow where
  run : String
  resource : String
  /-- The good use. -/
  effective : Double
  /-- All use. -/
  total : Double
deriving DecidableEq

namespace BatchReport

def ofOutcomes (outcomes : List (JobOutcome RunAnalysis)) : BatchReport where
  runs := outcomes.filterMap fun o =>
    match o.result with
    | .ok run => some (.ofRun run)
    | .error _ => none
  failures := outcomes.filterMap fun o =>
    match o.result with
    | .ok _ => none
    | .error fault => some ⟨o.dir, fault.message⟩

/-- What is reported when outcomes are summarized. -/
def journal (outcomes : List (JobOutcome RunAnalysis)) : List LogRecord :=
  outcomes.flatMap fun o =>
    match o.result with
    | .ok run => RunSummary.journal run
    | .error _ => []

/-! ## The document -/

def failureJson (f : RunFailure) : Json := .object [("dir", .text f.dir), ("error", .text f.error)]

def toJson (r : BatchReport) : Json :=
  .object [("runs", .array (r.runs.map RunSummary.toJson)),
    ("failures", .array (r.failures.map failureJson))]

def jsonText (r : BatchReport) : String := r.toJson.pretty

/-! ## The table of resources -/

/-- The lines of a run. -/
def runRows (s : RunSummary) : List UsageRow :=
  s.usage.entries.map fun (resource, r) => ⟨s.name, resource, r.effective, r.total⟩

/-- The order of the table: by run, then by resource. -/
def rowLe (x y : UsageRow) : Bool :=
  decide (x.run < y.run) || (x.run = y.run && decide (x.resource ≤ y.resource))

/-- The lines of the table in order; equal ones keep the order of the runs. -/
def usageRows (r : BatchReport) : List UsageRow := (r.runs.flatMap runRows).mergeSort rowLe

/-- Numbers in the table are positional from `0.00001` on and below `10 ^ 16`, and a positive
exponent has no sign. -/
def tableStyle : NumberStyle where
  positional e := -5 ≤ e ∧ e < 16
  wholeMark := ".0"
  plusMark := ""
  halfUp := false

/-- The names of the columns. -/
def tableHeader : List String := ["run", "resource", "effective_utilization", "total_utilization"]

def rowFields (row : UsageRow) : List String :=
  [row.run, row.resource, tableStyle.text row.effective, tableStyle.text row.total]

/-- The text of the table. Without lines there is no header either. -/
def tableText (r : BatchReport) : String :=
  match r.usageRows with
  | [] => ""
  | rows => Delimited.writeRecords (tableHeader :: rows.map rowFields)

end BatchReport

/-- Hands a text to a place with room for so many bytes. -/
def deliver (room : Nat) (text : String) : Except String Unit :=
  if text.utf8ByteSize ≤ room then .ok () else .error "full"

end ClusterTrace
