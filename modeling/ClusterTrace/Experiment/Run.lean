import ClusterTrace.Experiment.RunFiles
import ClusterTrace.Solver.Record
import ClusterTrace.Statistics.Sample
import ClusterTrace.Trace.Journal

/-!
# Runs

The analysis of one run: its settings, its trace and the solver records of its log, loaded in this
order, so that the first of them at fault decides.
-/

namespace ClusterTrace

/-- How runs are analysed. -/
structure RunOptions where
  /-- A resource that no pool declares is a fault. -/
  checkResources : Bool
  /-- The markers of solver records. -/
  format : LogFormat
deriving DecidableEq

structure RunAnalysis where
  /-- The label of the run. -/
  name : String
  files : RunFiles
  settings : Settings
  arrivalRates : ArrivalRates
  trace : TraceAnalysis
  solverRecords : List SolverRecord

namespace RunAnalysis

/-- Names the path of a file fault. -/
def atPath {α : Type} (path : String) (r : Except FileFault α) : Except RunFault α :=
  r.mapError (.unreadable path)

def loadSettings (s : Storage) (path : String) : Except RunFault Settings :=
  (atPath path (s.readText path)).bind fun text => (Settings.parse text).mapError .settings

/-- Loads the trace of a run. -/
def loadTrace (s : Storage) (path : String) (checkResources : Bool) :
    Except RunFault TraceAnalysis :=
  (atPath path (s.readText path)).bind fun text =>
    (TraceAnalysis.ofBytes (Utf8.encode text) checkResources).mapError .trace

/-- Loads the solver records of a run. -/
def loadLog (s : Storage) (path : String) (format : LogFormat) :
    Except RunFault (List SolverRecord) :=
  (atPath path (s.read path)).map (SolverRecord.ofLog format)

def load (s : Storage) (dir : String) (options : RunOptions) : Except RunFault RunAnalysis := do
  let files ← RunFiles.discover s dir
  let settings ← loadSettings s files.config
  let trace ← loadTrace s files.trace options.checkResources
  let solverRecords ← loadLog s files.log options.format
  return {
    name := runName dir
    files
    settings
    arrivalRates := .ofList settings.arrivalRates
    trace
    solverRecords }

/-- The times inside the solver in seconds, in the order of the log. -/
def solverTimes (r : RunAnalysis) : List Double := r.solverRecords.filterMap SolverRecord.solverTime

/-- The times of the whole calls in seconds, in the order of the log. -/
def solverTotalTimes (r : RunAnalysis) : List Double :=
  r.solverRecords.filterMap SolverRecord.totalTime

/-- The numbers of constraints, in the order of the log. -/
def constraintCounts (r : RunAnalysis) : List Nat :=
  r.solverRecords.filterMap SolverRecord.constraintCount

/-- The numbers of variables, in the order of the log. -/
def variableCounts (r : RunAnalysis) : List Nat :=
  r.solverRecords.filterMap SolverRecord.variableCount

def schedulerRuntimeSummary (r : RunAnalysis) : Option (Summary Double) :=
  Summary.of? r.trace.schedulerRuntimes

def solverTimeSummary (r : RunAnalysis) : Option (Summary Double) := Summary.of? r.solverTimes

/-! ## The journal of a run -/

/-- What is reported while the trace of a run is loaded. -/
def traceJournal (s : Storage) (path : String) (checkResources : Bool) : List LogRecord :=
  match s.readText path with
  | .error _ => []
  | .ok text =>
    TraceAnalysis.journal (Utf8.encode text) checkResources ++
      match loadTrace s path checkResources with
      | .ok _ => [⟨.debug, s!"analyzed trace {path}"⟩]
      | .error _ => []

/-- What is reported while a run is loaded. -/
def journal (s : Storage) (dir : String) (options : RunOptions) : List LogRecord :=
  match RunFiles.discover s dir with
  | .error _ => []
  | .ok files =>
    match loadSettings s files.config, loadTrace s files.trace options.checkResources with
    | .error _, _ => []
    | .ok _, .error _ => traceJournal s files.trace options.checkResources
    | .ok _, .ok trace =>
      traceJournal s files.trace options.checkResources ++
        match s.read files.log with
        | .error _ => []
        | .ok content =>
          let records := SolverRecord.ofLog options.format content
          SolverRecord.logJournal options.format content ++
            [⟨.debug, s!"loaded run {dir}: {trace.events.length} events, " ++
              s!"{records.length} solver records"⟩]

end RunAnalysis

end ClusterTrace
