import ClusterTrace.Journal
import ClusterTrace.Trace.Analysis

/-!
# The journal of a trace

What is reported while a trace is read, replayed, accounted and measured.
-/

namespace ClusterTrace

/-- What is reported while a trace is read. -/
def readTraceJournal (bytes : Bytes) : List LogRecord :=
  match readTrace bytes with
  | .ok events => [⟨.debug, s!"parsed {events.length} trace events"⟩]
  | .error _ => []

namespace Replay

/-- What is reported when an event is taken: a pool that is declared again. -/
def processJournal (r : Replay) (e : Event) : List LogRecord :=
  match e.kind?, e.pool with
  | some .workerPool, .ok pool =>
    if r.pools.contains pool.id then
      [⟨.debug, s!"worker pool {pool.id} redeclared at line {e.line}"⟩]
    else []
  | _, _ => []

/-- What is reported while events are taken, whether they fit or not. -/
def processAllJournal (r : Replay) : List Event → List LogRecord
  | [] => []
  | e :: rest => r.processJournal e ++ (r.process e).1.processAllJournal rest

/-- What is reported while events are taken up to the first fault. -/
def runJournal (r : Replay) : List Event → List LogRecord
  | [] => []
  | e :: rest =>
    match r.process e with
    | (next, none) => r.processJournal e ++ next.runJournal rest
    | (_, some _) => r.processJournal e

/-- What is reported at the end of the trace: the placements that are closed, and the size of the
cluster if all references are good. -/
def finishJournal (r : Replay) (checkResources : Bool) : List LogRecord :=
  let running := r.tasks.entries.filter fun (_, h) => h.running.isSome
  let closings := running.map fun (key, _) =>
    ⟨.debug, s!"closing running task {key.task} at trace end {r.endTick}"⟩
  match r.finish checkResources with
  | .error _ => closings
  | .ok c =>
    closings ++ [⟨.debug,
      s!"reconstructed {c.tasks.length} tasks in {c.graphs.size} task graphs over " ++
        s!"{c.pools.length} worker pools"⟩]

end Replay

/-- What is reported while a trace is replayed. -/
def replayJournal (events : List Event) (checkResources : Bool) : List LogRecord :=
  Replay.start.runJournal events ++
    match Replay.start.run events with
    | .ok r => r.finishJournal checkResources
    | .error _ => []

/-- The name of a degeneracy in sentences. -/
def Degeneracy.word : Degeneracy → String
  | .zeroCapacity => "ZeroCapacity"
  | .emptyWindow => "EmptyWindow"

/-- What is reported about an account: the resources without a ratio. -/
def ClusterUsage.journal (u : ClusterUsage Double) : List LogRecord :=
  u.resources.entries.filterMap fun (name, r) =>
    r.degenerate.map fun reason =>
      let capacity := NumberStyle.plain.text r.capacity
      ⟨.warn, s!"utilization of {name} is degenerate ({reason.word}, capacity {capacity}, " ++
        s!"end tick {u.endTick}), reporting 0"⟩

/-- What is reported when a row of statistics is read: counts that are left out. -/
def LogStats.journal (s : LogStats) : List LogRecord :=
  match s.counted with
  | .ok _ => []
  | .error fault => [⟨.debug, s!"ignoring task graph counts: {fault.message}"⟩]

/-- What is reported when the last row of statistics is read, if there is one. -/
def logStatsJournal (events : List Event) : List LogRecord :=
  match Metrics.lastLogStats? events with
  | none => []
  | some s => s.journal

namespace TraceAnalysis

/-- What is reported while the events of a trace are analysed. -/
def eventsJournal (events : List Event) (checkResources : Bool) : List LogRecord :=
  replayJournal events checkResources ++
    match replay events checkResources with
    | .error _ => []
    | .ok cluster =>
      cluster.usage.journal ++ logStatsJournal events ++
        match ofEvents events checkResources with
        | .error _ => []
        | .ok a =>
          if a.complete then [] else [⟨.debug, "trace does not end with SIMULATOR_END"⟩]

/-- What is reported while a trace is analysed. -/
def journal (bytes : Bytes) (checkResources : Bool) : List LogRecord :=
  readTraceJournal bytes ++
    match readTrace bytes with
    | .ok events => eventsJournal events checkResources
    | .error _ => []

end TraceAnalysis

end ClusterTrace
