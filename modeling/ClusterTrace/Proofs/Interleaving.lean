import ClusterTrace.Proofs.ReplayStep
import ClusterTrace.Trace.Analysis

/-!
# Rows that may change places

The analysis goes through a trace several times, and each time it looks at rows of some kinds only.
So traces that agree on the rows of these kinds, each in their order, are analysed alike, however
the kinds are interleaved and whatever other rows there are (`SameRows`).

A replay is not quite blind to the other rows: it keeps the largest tick of all, at which it closes
the placements of a trace that has no end mark. Hence `run_withLastTick` and `run_eq`, which
take the largest tick apart from the rest of the state.
-/

namespace ClusterTrace

/-- The row is about a pool, a task graph, a task or the end of the trace. -/
def Event.isEntityRow (e : Event) : Bool :=
  e.is .workerPool || e.is .graphRelease || e.isMark || e.isTaskRow || e.is .simulatorEnd

/-- Two traces with the same rows of each sort that is looked at, whose largest ticks are equal
(zero if there are no rows) and which both end with an end mark or both do not. -/
structure SameRows (rows rows' : List Event) : Prop where
  entities : rows.filter Event.isEntityRow = rows'.filter Event.isEntityRow
  starts : rows.filter (fun e => e.is .schedulerStart) =
    rows'.filter fun e => e.is .schedulerStart
  finishes : rows.filter (fun e => e.is .schedulerFinished) =
    rows'.filter fun e => e.is .schedulerFinished
  stats : rows.filter (fun e => e.is .logStats) = rows'.filter fun e => e.is .logStats
  largestTick : (rows.map Event.tick).foldl max 0 = (rows'.map Event.tick).foldl max 0
  marked : (rows.getLast?.any fun e => e.is .simulatorEnd) =
    rows'.getLast?.any fun e => e.is .simulatorEnd

/-- The analyses agree in all but the rows that they keep. -/
structure TraceAnalysis.Alike (a b : TraceAnalysis) : Prop where
  cluster : a.cluster = b.cluster
  usage : a.usage = b.usage
  logStats : a.logStats = b.logStats
  schedulerRuntimes : a.schedulerRuntimes = b.schedulerRuntimes
  schedulerLoads : a.schedulerLoads = b.schedulerLoads
  slacks : a.slacks = b.slacks
  complete : a.complete = b.complete

/-- Both analyses stop with the same fault, or both are finished and agree. -/
inductive SameFindings :
    Except TraceFault TraceAnalysis → Except TraceFault TraceAnalysis → Prop
  | fault (fault : TraceFault) : SameFindings (.error fault) (.error fault)
  | finished {a b : TraceAnalysis} (alike : a.Alike b) : SameFindings (.ok a) (.ok b)

/-- All other rows are about nothing that a replay keeps. -/
theorem Event.isEntityRow_eq_false {e : Event} (h : e.isEntityRow = false) :
    e.subject = .nothing := by
  cases hk : e.kind? with
  | none => rw [subject, hk]
  | some kind =>
    have hkind := kind?_eq_some_iff.mp hk
    rw [subject_of_is hkind]
    simp only [isEntityRow, isMark, isTaskRow, is_of_is hkind] at h
    cases kind with
    | schedulerStart | schedulerFinished | logStats => rfl
    | _ => cases h

/-! ## The largest tick apart from the rest -/

namespace Replay

/-- The state with another largest tick. -/
def withLastTick (r : Replay) (tick : Nat) : Replay := { r with lastTick := tick }

/-- What becomes of a graph does not depend on the ticks seen so far. -/
theorem markGraph_withLastTick (r : Replay) (tick : Nat) (e : Event)
    (mark : TaskGraph → TaskGraph) :
    (r.withLastTick tick).markGraph e mark =
      ((r.markGraph e mark).1.withLastTick tick, (r.markGraph e mark).2) := by
  have hgraphs : (r.withLastTick tick).graphs = r.graphs := rfl
  unfold markGraph
  rw [hgraphs]
  cases e.graphId with
  | error fault => rfl
  | ok id =>
    cases hg : r.graphs.get? id with
    | none => simp only [hg]
    | some graph => simp only [hg]; rfl

/-- Nor does a placement, which begins at the tick of its own row. -/
theorem placeTask_withLastTick (r : Replay) (tick : Nat) (e : Event) :
    (r.withLastTick tick).placeTask e =
      ((r.placeTask e).1.withLastTick tick, (r.placeTask e).2) := by
  have hhistory : (r.withLastTick tick).history = r.history := rfl
  unfold placeTask
  rw [hhistory]
  cases e.shares 2 with
  | error fault => rfl
  | ok shares =>
    cases e.taskKey with
    | error fault => rfl
    | ok key =>
      cases hrun : (r.history key).running with
      | none => simp only [hrun]; rfl
      | some current => simp only [hrun]

/-- Nor does its end. -/
theorem endTask_withLastTick (r : Replay) (tick : Nat) (e : Event) :
    (r.withLastTick tick).endTask e =
      ((r.endTask e).1.withLastTick tick, (r.endTask e).2) := by
  have hhistory : (r.withLastTick tick).history = r.history := rfl
  unfold endTask
  rw [hhistory]
  cases e.taskKey with
  | error fault => rfl
  | ok key =>
    cases hrun : (r.history key).running with
    | none => simp only [hrun]; rfl
    | some current =>
      by_cases hlt : e.tick < current.start
      · simp only [hrun, hlt]; rfl
      · simp only [hrun, hlt]; rfl

/-- Nothing that a row does depends on the largest tick so far. -/
theorem process_withLastTick (r : Replay) (tick : Nat) (e : Event) :
    (r.withLastTick tick).process e =
      ((r.process e).1.withLastTick (max tick e.tick), (r.process e).2) := by
  have hsee : (r.withLastTick tick).see e = (r.see e).withLastTick (max tick e.tick) := rfl
  rw [process_eq, process_eq, hsee]
  cases e.kind? with
  | none => rfl
  | some kind =>
    cases kind with
    | workerPool => unfold declarePool; cases e.pool <;> rfl
    | graphRelease => unfold releaseGraph; cases e.releasedGraph <;> rfl
    | graphFinished | missedDeadline | graphCancel => exact markGraph_withLastTick _ _ e _
    | taskRelease => unfold nameTask; cases e.taskKey <;> rfl
    | taskPlacement => exact placeTask_withLastTick _ _ e
    | taskFinished | taskPreempt => exact endTask_withLastTick _ _ e
    | simulatorEnd | schedulerStart | schedulerFinished | logStats => rfl

/-- So the ticks can be left out of a run and put in at its end. -/
theorem run_withLastTick (r : Replay) (tick tick' : Nat) (rows : List Event) :
    ((r.withLastTick tick).run rows).map (fun last => last.withLastTick tick') =
      (r.run rows).map fun last => last.withLastTick tick' := by
  induction rows generalizing r tick with
  | nil => rfl
  | cons e rest ih =>
    rw [run, run, process_withLastTick]
    cases r.process e with
    | mk next fault =>
      cases fault with
      | none => exact ih next _
      | some fault => rfl

/-- A row about anything else leaves its tick and nothing more. -/
theorem process_of_not_entity {e : Event} (h : e.isEntityRow = false) (r : Replay) :
    r.process e = (r.withLastTick (max r.lastTick e.tick), none) := by
  have hsubject := Event.isEntityRow_eq_false h
  rw [process_eq]
  cases hk : e.kind? with
  | none => rfl
  | some kind =>
    rw [Event.subject_of_is (Event.kind?_eq_some_iff.mp hk)] at hsubject
    cases kind with
    | schedulerStart | schedulerFinished | logStats => rfl
    | _ => cases hsubject

/-- A run over a trace is the run over its entity rows, but for the largest tick. The induction is
on the rows: one that is skipped only raises the tick. -/
theorem run_eq (r : Replay) (rows : List Event) :
    r.run rows = (r.run (rows.filter Event.isEntityRow)).map fun last =>
      last.withLastTick ((rows.map Event.tick).foldl max r.lastTick) := by
  induction rows generalizing r with
  | nil => rfl
  | cons e rest ih =>
    cases hrow : e.isEntityRow with
    | false =>
      -- A skipped row leaves its tick in the state, and the rest of the run does not look at that.
      rw [run, process_of_not_entity hrow, List.filter_cons_of_neg (by rw [hrow]; decide)]
      exact (ih _).trans (run_withLastTick r _ _ _)
    | true =>
      rw [List.filter_cons_of_pos hrow, run, run]
      cases hp : r.process e with
      | mk next fault =>
        cases fault with
        | none =>
          have hlast : next.lastTick = max r.lastTick e.tick := (step_of_process hp).lastTick
          rw [List.map_cons, List.foldl_cons, ← hlast]
          exact ih next
        | some fault => rfl

end Replay

/-! ## Traces with the same rows -/

namespace SameRows

variable {rows rows' : List Event}

/-- Both traces have the same rows about pools, graphs and tasks, and the same tick at which
placements are closed. -/
theorem replay_eq (h : SameRows rows rows') (checkResources : Bool) :
    replay rows checkResources = replay rows' checkResources := by
  rw [replay, replay, Replay.run_eq _ rows, Replay.run_eq _ rows', h.entities]
  exact congrArg (fun tick => Except.bind (Except.map (Replay.withLastTick · tick) _) _)
    h.largestTick

/-- The rows that release graphs are among the entity rows. -/
theorem eventsOf_graphRelease (h : SameRows rows rows') :
    Metrics.eventsOf .graphRelease rows = Metrics.eventsOf .graphRelease rows' := by
  have hsub : ∀ rows : List Event, Metrics.eventsOf .graphRelease rows =
      Metrics.eventsOf .graphRelease (rows.filter Event.isEntityRow) := by
    intro rows
    rw [Metrics.eventsOf, Metrics.eventsOf, List.filter_filter]
    refine List.filter_congr fun e _ => ?_
    cases hrelease : e.is .graphRelease with
    | false => rfl
    | true => simp [Event.isEntityRow, hrelease]
  rw [hsub, hsub rows', h.entities]

theorem isComplete_eq (h : SameRows rows rows') :
    Metrics.isComplete rows = Metrics.isComplete rows' := by
  have hany : ∀ rows : List Event, Metrics.isComplete rows =
      rows.getLast?.any fun e => e.is .simulatorEnd := by
    intro rows
    rw [Metrics.isComplete]
    cases rows.getLast? <;> rfl
  rw [hany, hany, h.marked]

end SameRows

/-- Traces with the same rows of each sort that is looked at are analysed alike: both with the same
findings, or both up to the same fault. -/
theorem ofEvents_sameFindings {rows rows' : List Event} (h : SameRows rows rows')
    (checkResources : Bool) :
    SameFindings (TraceAnalysis.ofEvents rows checkResources)
      (TraceAnalysis.ofEvents rows' checkResources) := by
  have hfinishes : Metrics.eventsOf .schedulerFinished rows =
      Metrics.eventsOf .schedulerFinished rows' := h.finishes
  have hruntimes : Metrics.schedulerRuntimes rows = Metrics.schedulerRuntimes rows' := by
    rw [Metrics.schedulerRuntimes, hfinishes, Metrics.schedulerRuntimes]
  have hloads : Metrics.schedulerLoads rows = Metrics.schedulerLoads rows' :=
    congrArg (Metrics.readEach Event.schedulerLoad) h.starts
  have hslacks : Metrics.slacks rows = Metrics.slacks rows' :=
    congrArg (Metrics.readEach Event.slack) h.eventsOf_graphRelease
  have hstats : Metrics.lastLogStats? rows = Metrics.lastLogStats? rows' :=
    congrArg (fun es => es.getLast?.map Event.logStats) h.stats
  unfold TraceAnalysis.ofEvents
  rw [h.replay_eq, hruntimes, hloads, hslacks, hstats, h.isComplete_eq]
  cases replay rows' checkResources with
  | error fault => exact .fault fault
  | ok cluster =>
    cases Metrics.schedulerRuntimes rows' with
    | error fault => exact .fault fault
    | ok runtimes =>
      cases Metrics.schedulerLoads rows' with
      | error fault => exact .fault fault
      | ok loads =>
        cases Metrics.slacks rows' with
        | error fault => exact .fault fault
        | ok slacks => exact .finished ⟨rfl, rfl, rfl, rfl, rfl, rfl, rfl⟩

/-- A task still runs when the trace stops without an end mark; the last row is of no known kind. -/
def unendedTrace : List Event :=
  [⟨1, 0, "WORKER_POOL", ["pool0", "GPU", "2"]⟩,
   ⟨2, 0, "TASK_GRAPH_RELEASE", ["0", "50", "g0", "1", "9"]⟩,
   ⟨3, 1, "SCHEDULER_START", ["1", "0"]⟩,
   ⟨4, 2, "TASK_PLACEMENT", ["g0", "t0", "GPU", "1"]⟩,
   ⟨5, 2, "SCHEDULER_FINISHED", ["1", "1", "0", "250000"]⟩,
   ⟨6, 9, "LOG_STATS", ["0", "0", "0", "1", "0", "0", "0.5"]⟩,
   ⟨7, 12, "WORKER_LEFT", ["pool0"]⟩]

/-- The same with the scheduler and the statistics first, and another row at the last tick. -/
def reorderedTrace : List Event :=
  [⟨6, 9, "LOG_STATS", ["0", "0", "0", "1", "0", "0", "0.5"]⟩,
   ⟨5, 2, "SCHEDULER_FINISHED", ["1", "1", "0", "250000"]⟩,
   ⟨8, 12, "NOTE", []⟩,
   ⟨3, 1, "SCHEDULER_START", ["1", "0"]⟩,
   ⟨1, 0, "WORKER_POOL", ["pool0", "GPU", "2"]⟩,
   ⟨2, 0, "TASK_GRAPH_RELEASE", ["0", "50", "g0", "1", "9"]⟩,
   ⟨4, 2, "TASK_PLACEMENT", ["g0", "t0", "GPU", "1"]⟩]

/-- Rows of the scheduler and rows that mean nothing stand elsewhere, and the trace can be
analysed. -/
theorem reorderedTrace_sameFindings :
    SameRows unendedTrace reorderedTrace ∧
      (∃ a, TraceAnalysis.ofEvents unendedTrace true = .ok a) ∧
      SameFindings (TraceAnalysis.ofEvents unendedTrace true)
        (TraceAnalysis.ofEvents reorderedTrace true) := by
  have hsame : SameRows unendedTrace reorderedTrace :=
    ⟨by decide +kernel, by decide +kernel, by decide +kernel, by decide +kernel, by decide +kernel,
      by decide +kernel⟩
  have hok : (TraceAnalysis.ofEvents unendedTrace true).toOption.any (fun _ => true) = true := by
    decide +kernel
  obtain ⟨a, ha, -⟩ := exists_of_any_toOption hok
  exact ⟨hsame, ⟨a, ha⟩, ofEvents_sameFindings hsame true⟩

end ClusterTrace
