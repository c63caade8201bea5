import ClusterTrace.Batch.Analysis
import ClusterTrace.Report.Json

/-!
# Summaries of runs

What a report says about one run: all of its analysis but the series of single ticks, events and
solver calls.
-/

namespace ClusterTrace

/-- The account of one resource without its series. -/
structure ResourceSummary where
  /-- The amount installed. -/
  capacity : Double
  /-- The good use, as a part of what was installed over the window. -/
  effective : Double
  /-- The good and the bad use, as a part of what was installed over the window. -/
  total : Double
  /-- Why the two ratios are set to zero, if they are. -/
  degenerate : Option Degeneracy
deriving DecidableEq

/-- The solver records of a run in few numbers. -/
structure SolverSummary where
  records : Nat
  /-- The times inside the solver, in seconds. -/
  solverTime : Option (Summary Double)
  /-- The times of the whole calls, in seconds. -/
  totalTime : Option (Summary Double)
  variableCounts : Option (Summary Double)
  constraintCounts : Option (Summary Double)
deriving DecidableEq

/-- What a report says about one run. -/
structure RunSummary where
  /-- The label of the run. -/
  name : String
  dir : String
  scheduler : Option String
  arrivalRates : ArrivalRates
  /-- The number of task graphs of each class. -/
  invocations : Option (List Nat)
  /-- Its trace ends with the end of the simulation. -/
  complete : Bool
  /-- The attainment in percent. -/
  slo : Option Double
  graphs : Option GraphCounts
  /-- The number of ticks in the window of its account. -/
  endTick : Nat
  usage : Keyed String ResourceSummary
  /-- Its account at a glance. -/
  cluster : Option (UsageOverview Double)
  /-- The runtimes of the scheduler, in seconds. -/
  schedulerRuntime : Option (Summary Double)
  /-- The slacks of its task graphs. -/
  slack : Option (Summary Double)
  solver : SolverSummary

namespace RunSummary

/-- An account without its series. -/
def ofUsage (r : ResourceUsage Double) : ResourceSummary :=
  ⟨r.capacity, r.effective, r.total, r.degenerate⟩

def ofCounts (counts : List Nat) : Option (Summary Double) :=
  Summary.of? (counts.map Double.ofNat)

def ofRun (r : RunAnalysis) : RunSummary where
  name := r.name
  dir := r.files.dir
  scheduler := r.settings.scheduler
  arrivalRates := r.arrivalRates
  invocations := r.settings.invocations
  complete := r.trace.complete
  slo := r.trace.slo.toOption
  graphs := r.trace.graphCounts?
  endTick := r.trace.usage.endTick
  usage := r.trace.usage.resources.map fun _ usage => ofUsage usage
  cluster := r.trace.usage.overview?
  schedulerRuntime := r.schedulerRuntimeSummary
  slack := Summary.of? (r.trace.slacks.map Double.ofInt)
  solver :=
    { records := r.solverRecords.length
      solverTime := r.solverTimeSummary
      totalTime := Summary.of? r.solverTotalTimes
      variableCounts := ofCounts r.variableCounts
      constraintCounts := ofCounts r.constraintCounts }

/-- What is reported when a run is summarized: an attainment that is missing. -/
def journal (r : RunAnalysis) : List LogRecord :=
  match r.trace.slo with
  | .ok _ => []
  | .error fault => [⟨.warn, s!"run {r.name}: {fault.message}"⟩]

/-! ## Documents -/

def degeneracyName : Degeneracy → String
  | .zeroCapacity => "zero_capacity"
  | .emptyWindow => "empty_window"

/-- The document of the account of a resource. -/
def resourceJson (r : ResourceSummary) : Json :=
  let degenerate := match r.degenerate with
    | none => []
    | some reason => [("degenerate", Json.text (degeneracyName reason))]
  .object ([("capacity", .number r.capacity), ("effective_utilization", .number r.effective),
    ("total_utilization", .number r.total)] ++ degenerate)

/-- The document of an account at a glance. -/
def overviewJson (o : UsageOverview Double) : Json :=
  .object [("resource_count", .natural o.resourceCount),
    ("mean_effective_utilization", .number o.meanEffective),
    ("mean_total_utilization", .number o.meanTotal),
    ("best_resource", .text o.best), ("worst_resource", .text o.worst)]

/-- The document of a summary of numbers. -/
def summaryJson (s : Summary Double) : Json :=
  .object [("count", .natural s.count), ("mean", .number s.mean), ("min", .number s.min),
    ("p25", .number s.p25), ("median", .number s.median), ("p75", .number s.p75),
    ("p95", .number s.p95), ("max", .number s.max)]

def countsJson (c : GraphCounts) : Json :=
  .object [("total", .natural c.total), ("finished", .natural c.finished),
    ("cancelled", .natural c.cancelled), ("missed_deadline", .natural c.missedDeadline)]

/-- The document of solver records. -/
def solverJson (s : SolverSummary) : Json :=
  .object [("records", .natural s.records),
    ("solver_time_s", .ofOption summaryJson s.solverTime),
    ("total_time_s", .ofOption summaryJson s.totalTime),
    ("num_variables", .ofOption summaryJson s.variableCounts),
    ("num_constraints", .ofOption summaryJson s.constraintCounts)]

def ratesJson (r : ArrivalRates) : Json :=
  .object [("rates", .array (r.rates.map .number)), ("total", .number r.total)]

def toJson (s : RunSummary) : Json :=
  .object [
    ("name", .text s.name),
    ("dir", .text s.dir),
    ("scheduler", .ofOption .text s.scheduler),
    ("arrival_rates", ratesJson s.arrivalRates),
    ("num_invocations", .ofOption (fun ns => .array (ns.map .natural)) s.invocations),
    ("complete", .bool s.complete),
    ("slo", .ofOption .number s.slo),
    ("task_graphs", .ofOption countsJson s.graphs),
    ("end_tick", .natural s.endTick),
    ("utilization", .object (s.usage.entries.map fun (name, r) => (name, resourceJson r))),
    ("cluster", .ofOption overviewJson s.cluster),
    ("scheduler_runtime_s", .ofOption summaryJson s.schedulerRuntime),
    ("deadline_slack", .ofOption summaryJson s.slack),
    ("solver", solverJson s.solver)]

end RunSummary

end ClusterTrace
