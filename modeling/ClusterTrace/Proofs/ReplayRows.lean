import ClusterTrace.Proofs.ReplayStep

/-!
# A replay agrees with its rows

After a run without a fault, each part of the replay is a function of the rows alone: of the last
row that says something about it. The invariant is `Replay.Reflects`; it is kept by every step.
-/

namespace ClusterTrace

/-! ## One more row -/

section Concat

variable (rows : List Event) (e : Event)

/-- The keys of rows in the order of their first occurrence, with one more row. -/
theorem eraseDups_filterMap_concat {κ : Type} [DecidableEq κ] (key : Event → Option κ) :
    ((rows ++ [e]).filterMap key).eraseDups =
      match key e with
      | some k =>
        if k ∈ (rows.filterMap key).eraseDups then (rows.filterMap key).eraseDups
        else (rows.filterMap key).eraseDups ++ [k]
      | none => (rows.filterMap key).eraseDups := by
  rw [List.filterMap_append]
  cases hk : key e with
  | none => simp [hk]
  | some k =>
    rw [List.filterMap_cons_some hk, List.filterMap_nil, eraseDups_concat]
    simp only [List.mem_eraseDups]

theorem namedTasks_concat :
    namedTasks (rows ++ [e]) =
      match (if e.isTaskRow then e.key? else none) with
      | some key => if key ∈ namedTasks rows then namedTasks rows else namedTasks rows ++ [key]
      | none => namedTasks rows := by
  unfold namedTasks
  rw [List.filterMap_filter, List.filterMap_filter, eraseDups_filterMap_concat]
  cases (if e.isTaskRow then e.key? else none) <;> rfl

theorem declaration?_concat (pool : String) :
    declaration? (rows ++ [e]) pool =
      if e.declares pool then some e else declaration? rows pool := by
  unfold declaration?
  rw [List.filter_append]
  cases h : e.declares pool with
  | false => simp [h]
  | true => simp [h]

theorem openRow?_concat (key : TaskKey) :
    openRow? (rows ++ [e]) key =
      if e.places key then some e else if e.ends key then none else openRow? rows key := by
  unfold openRow?
  rw [List.filter_append]
  cases hp : e.places key with
  | true => simp [hp, Option.filter]
  | false =>
    cases he : e.ends key with
    | true => simp [hp, he, Option.filter]
    | false => simp [hp, he]

theorem released_concat (graph : String) :
    Released (rows ++ [e]) graph ↔ Released rows graph ∨ e.releases graph = true := by
  simp [Released, or_and_right, exists_or]

end Concat

/-! ## The invariant -/

namespace Replay

/-- The state says what the rows say. -/
structure Reflects (rows : List Event) (r : Replay) : Prop where
  lastTick : r.lastTick = (rows.map Event.tick).foldl max 0
  endMark : r.endMark = (rows.filter fun e => e.is .simulatorEnd).getLast?.map Event.tick
  tasks : r.tasks.keys = namedTasks rows
  graphs : ∀ graph, graph ∈ r.graphs.keys ↔ Released rows graph
  pools : ∀ pool, r.pools.get? pool = (declaration? rows pool).bind fun e => e.pool.toOption
  running : ∀ key, (r.history key).running.map Running.start = (openRow? rows key).map Event.tick

variable {rows : List Event} {r r' : Replay} {e : Event}

theorem reflects_start : start.Reflects [] where
  lastTick := rfl
  endMark := rfl
  tasks := rfl
  graphs := by simp [Replay.start, Released]
  pools := fun _ => rfl
  running := fun _ => rfl

theorem Reflects.step (hr : r.Reflects rows) (h : Step r e r') : r'.Reflects (rows ++ [e]) where
  lastTick := by
    rw [h.lastTick, hr.lastTick, List.map_append, List.foldl_append]
    rfl
  endMark := by
    rw [h.endMark, hr.endMark, List.filter_append]
    cases hend : e.is .simulatorEnd with
    | false => simp [hend]
    | true => simp [hend]
  tasks := by
    rw [h.keys_tasks, hr.tasks]
    exact (namedTasks_concat rows e).symm
  graphs := fun graph => by rw [h.mem_graphs, released_concat, hr.graphs]
  pools := fun pool => by
    rw [h.get?_pools, declaration?_concat, hr.pools]
    split <;> rfl
  running := fun key => by
    rw [openRow?_concat]
    have hstep := h.history key
    generalize r'.history key = after at hstep
    cases hstep with
    | idle places ends => simpa [places, ends] using hr.running key
    | placed places => simp [places]
    | ended ends =>
      simp [ends, Event.places_eq_false_of_ends ends key]

theorem reflects_of_run (h : start.run rows = .ok r) : r.Reflects rows := by
  induction rows using List.reverseRecOn generalizing r with
  | nil =>
    cases h
    exact reflects_start
  | append_singleton rows e ih =>
    obtain ⟨before, hbefore, hprocess⟩ := run_concat_eq_ok_iff.mp h
    exact (ih hbefore).step (step_of_process hprocess)

/-- A pool is kept as the last row that declares it says. -/
theorem Reflects.get?_pools_iff (hr : r.Reflects rows) {pool : String} {p : WorkerPool Double} :
    r.pools.get? pool = some p ↔ ∃ e, declaration? rows pool = some e ∧ e.pool = .ok p := by
  rw [hr.pools, Option.bind_eq_some_iff]
  simp only [toOption_eq_some_iff]

theorem Reflects.endTick (hr : r.Reflects rows) : r.endTick = traceEnd rows := by
  unfold Replay.endTick traceEnd
  rw [hr.endMark, hr.lastTick]
  cases (rows.filter fun e => e.is .simulatorEnd).getLast? <;> rfl

end Replay

end ClusterTrace
