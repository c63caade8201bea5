import ClusterTrace.Proofs.ReplayRows
import Mathlib.Data.List.Forall2

/-!
# The tasks and placements of a trace

The cluster of a trace has the tasks that its rows name and, for each of them, one placement for
each row that places it: no placement is lost, made up or given to another task. A placement lasts
from the tick of its row to that of the first later row that ends it, however far away that row is
and whatever the rows of other tasks in between say.
-/

namespace ClusterTrace

/-- The task that a task of a cluster is. -/
def Task.key {α : Type} (t : Task α) : TaskKey := ⟨t.graph, t.id⟩

/-- The placement of a task that a row begins, given the rows after it and the tick at which the
trace ends. -/
structure Placement.FromRow (key : TaskKey) (endTick : Nat) (placing : Event × List Event)
    (p : Placement Double) : Prop where
  /-- It begins at the tick of the row. -/
  start : p.start = placing.1.tick
  /-- It holds what the row lists. -/
  shares : ListsShares (placing.1.params.drop 2) p.shares
  /-- It ends with the first later row that ends it, or else with the trace, but not before it
  began. -/
  completion : p.completion =
    match endingTick? key placing.2 with
    | some tick => tick
    | none => max p.start endTick

theorem map_fst_placings (key : TaskKey) (rows : List Event) :
    (placings key rows).map Prod.fst = rows.filter fun e => e.places key := by
  induction rows with
  | nil => rfl
  | cons e rest ih =>
    rw [placings]
    cases hp : e.places key with
    | true => simp [hp, ih]
    | false => simp [hp, ih]

theorem endingTick?_cons (key : TaskKey) (e : Event) (rest : List Event) :
    endingTick? key (e :: rest) = if e.ends key then some e.tick else endingTick? key rest := by
  unfold endingTick?
  rw [List.find?_cons]
  cases e.ends key <;> rfl

namespace Replay

variable {rows : List Event} {r r' : Replay}

/-- The placements of a task once the rows to come have ended the one that is running. -/
def placementsAfter (key : TaskKey) (endTick : Nat) (rows : List Event) (h : TaskHistory) :
    List (Placement Double) :=
  h.placements ++ (h.running.map fun current =>
    ⟨current.start, (endingTick? key rows).getD (max endTick current.start),
      current.shares⟩).toList

theorem closedPlacements_eq (key : TaskKey) (endTick : Nat) (h : TaskHistory) :
    closedPlacements endTick h = placementsAfter key endTick [] h := by
  unfold closedPlacements placementsAfter
  cases h.running <;> simp [endingTick?]

/-- What a run adds to the placements of a task: one for each row that places it. The induction is
on the rows, and each leaves the history as it is, opens a placement or closes the one under way. -/
theorem closedPlacements_of_run (h : r.run rows = .ok r') (key : TaskKey) (endTick : Nat) :
    ∃ later, closedPlacements endTick (r'.history key) =
        placementsAfter key endTick rows (r.history key) ++ later ∧
      List.Forall₂ (Placement.FromRow key endTick) (placings key rows) later := by
  induction rows generalizing r with
  | nil =>
    cases h
    exact ⟨[], by rw [List.append_nil, closedPlacements_eq key], .nil⟩
  | cons e rest ih =>
    obtain ⟨next, hprocess, hrest⟩ := run_cons_eq_ok_iff.mp h
    have hstep := (step_of_process hprocess).history key
    obtain ⟨later, hclosed, hlater⟩ := ih hrest
    rw [hclosed, placings]
    generalize next.history key = after at hstep
    cases hstep with
    | idle places ends =>
      refine ⟨later, ?_, by simpa [places] using hlater⟩
      simp [placementsAfter, endingTick?_cons, ends]
    | @placed shares places listed idle =>
      rw [if_pos places]
      refine ⟨⟨e.tick, (endingTick? key rest).getD (max endTick e.tick), shares⟩ :: later, ?_,
        .cons ⟨rfl, Event.shares_eq_ok_iff.mp listed, ?_⟩ hlater⟩
      · simp only [placementsAfter, idle, Option.map_none, Option.map_some, Option.toList_none,
          Option.toList_some, List.append_nil, List.append_assoc, List.singleton_append]
      · change (endingTick? key rest).getD _ = _
        cases endingTick? key rest with
        | none => exact Nat.max_comm _ _
        | some tick => rfl
    | @ended current ends running ordered =>
      rw [if_neg (by rw [Event.places_eq_false_of_ends ends key]; decide)]
      refine ⟨later, ?_, hlater⟩
      simp [placementsAfter, endingTick?_cons, ends, running]

theorem Reflects.map_key_cluster (hr : r.Reflects rows) :
    r.cluster.tasks.map Task.key = namedTasks rows := by
  rw [cluster, List.map_map, ← hr.tasks]
  rfl

/-- A task of the cluster has the placements that are known of it. -/
theorem placements_of_mem_cluster {t : Task Double} (h : t ∈ r.cluster.tasks) :
    t.placements = closedPlacements r.endTick (r.history t.key) := by
  obtain ⟨⟨key, known⟩, hentry, rfl⟩ := List.mem_map.mp h
  have hget : r.tasks.get? key = some known := Keyed.get?_eq_some_iff.mpr hentry
  change _ = closedPlacements r.endTick (r.history key)
  rw [history, hget]
  rfl

/-- A task of the cluster has a placement for each row that places it. -/
theorem placements_fromRow (h : start.run rows = .ok r) {t : Task Double}
    (ht : t ∈ r.cluster.tasks) :
    List.Forall₂ (Placement.FromRow t.key (traceEnd rows)) (placings t.key rows) t.placements := by
  obtain ⟨later, hclosed, hlater⟩ := closedPlacements_of_run h t.key r.endTick
  rw [placements_of_mem_cluster ht, hclosed, ← (reflects_of_run h).endTick]
  exact hlater

theorem finish_eq_ok_iff {check : Bool} {c : Cluster Double} :
    r.finish check = .ok c ↔
      c = r.cluster ∧ r.cluster.tasks.findSome? (referenceFault? check r.cluster) = none := by
  unfold finish
  cases hfault : r.cluster.tasks.findSome? (referenceFault? check r.cluster) with
  | none => simp [hfault, eq_comm]
  | some fault => simp [hfault]

theorem finish_eq_error_iff {check : Bool} {fault : TraceFault} :
    r.finish check = .error fault ↔
      r.cluster.tasks.findSome? (referenceFault? check r.cluster) = some fault := by
  unfold finish
  cases hfault : r.cluster.tasks.findSome? (referenceFault? check r.cluster) with
  | none => simp [hfault]
  | some fault => simp [hfault]

end Replay

theorem replay_eq_ok_iff {rows : List Event} {check : Bool} {c : Cluster Double} :
    replay rows check = .ok c ↔ ∃ r, Replay.start.run rows = .ok r ∧ r.finish check = .ok c :=
  bind_eq_ok_iff

/-- The tasks of a replay are those that the rows name, in the order in which they are first named,
and their placements are those that the rows begin, in the order of these rows. -/
theorem replay_tasks {rows : List Event} {check : Bool} {c : Cluster Double}
    (h : replay rows check = .ok c) :
    c.tasks.map Task.key = namedTasks rows ∧
      ∀ t ∈ c.tasks, List.Forall₂ (Placement.FromRow t.key (traceEnd rows))
        (placings t.key rows) t.placements := by
  obtain ⟨r, hrun, hfinish⟩ := replay_eq_ok_iff.mp h
  obtain ⟨rfl, -⟩ := Replay.finish_eq_ok_iff.mp hfinish
  exact ⟨(Replay.reflects_of_run hrun).map_key_cluster, fun t ht =>
    Replay.placements_fromRow hrun ht⟩

/-- Two tasks of one name take turns on a pool: one is preempted and placed again, the other still
runs when the trace ends. -/
def turnsTrace : List Event :=
  [⟨1, 0, "WORKER_POOL", ["pool0", "GPU", "2"]⟩,
   ⟨2, 0, "TASK_GRAPH_RELEASE", ["0", "50", "g0", "1", "9"]⟩,
   ⟨3, 1, "TASK_PLACEMENT", ["g0", "t0", "GPU", "1"]⟩,
   ⟨4, 2, "TASK_RELEASE", ["g1", "t0"]⟩,
   ⟨5, 4, "TASK_PREEMPT", ["g0", "t0"]⟩,
   ⟨6, 4, "TASK_PLACEMENT", ["g1", "t0", "GPU", "2", "GPU", "0"]⟩,
   ⟨7, 6, "TASK_GRAPH_RELEASE", ["0", "50", "g1", "1", "9"]⟩,
   ⟨8, 7, "TASK_PLACEMENT", ["g0", "t0", "GPU", "1"]⟩,
   ⟨9, 11, "TASK_FINISHED", ["g0", "t0"]⟩,
   ⟨10, 12, "SIMULATOR_END", []⟩]

theorem turnsTrace_tasks : ∃ c, replay turnsTrace true = .ok c ∧
    c.tasks.map Task.key = [⟨"g0", "t0"⟩, ⟨"g1", "t0"⟩] ∧
    ∀ t ∈ c.tasks, List.Forall₂ (Placement.FromRow t.key 12)
      (placings t.key turnsTrace) t.placements := by
  have hok : (replay turnsTrace true).toOption.any (fun _ => true) = true := by decide +kernel
  obtain ⟨c, hc, -⟩ := exists_of_any_toOption hok
  obtain ⟨htasks, hplacements⟩ := replay_tasks hc
  have hnamed : namedTasks turnsTrace = [⟨"g0", "t0"⟩, ⟨"g1", "t0"⟩] := by decide +kernel
  have hend : traceEnd turnsTrace = 12 := by decide +kernel
  exact ⟨c, hc, htasks.trans hnamed, hend ▸ hplacements⟩

end ClusterTrace
