import ClusterTrace.Proofs.Keyed
import ClusterTrace.Proofs.TraceRows

/-!
# What one row does to a replay

A row that fits takes a replay to its next state in one of the ways of `Replay.Step`, and a row that
does not in one of the ways of `Replay.Refusal`. The rest of this module reads off what that is to
each part of the state: to the pools and graphs, and to a single task, to which a row is nothing,
the begin of a placement or its end (`HistoryStep`).
-/

namespace ClusterTrace

/-- The graph after a row about what became of it. -/
def Event.mark (e : Event) (g : TaskGraph) : TaskGraph :=
  { g with
    completed := g.completed || e.is .graphFinished
    missedDeadline := g.missedDeadline || e.is .missedDeadline
    cancelled := g.cancelled || e.is .graphCancel }

namespace Replay

variable {r r' : Replay} {e : Event}

/-- The replay with the tick of a row taken note of. -/
def see (r : Replay) (e : Event) : Replay := { r with lastTick := max r.lastTick e.tick }

/-- A row fits and takes the replay to a new state. -/
inductive Step (r : Replay) (e : Event) : Replay → Prop
  | pool {p : WorkerPool Double} (kind : e.is .workerPool = true) (read : e.pool = .ok p) :
      Step r e { r.see e with pools := r.pools.insert p.id p }
  | release {g : TaskGraph} (kind : e.is .graphRelease = true) (read : e.releasedGraph = .ok g) :
      Step r e { r.see e with graphs := r.graphs.insert g.id g }
  | mark {id : String} {g : TaskGraph} (kind : e.isMark = true) (read : e.params[0]? = some id)
      (known : r.graphs.get? id = some g) :
      Step r e { r.see e with graphs := r.graphs.insert id (e.mark g) }
  | name {key : TaskKey} (kind : e.is .taskRelease = true) (read : e.key? = some key) :
      Step r e ((r.see e).setHistory key (r.history key))
  | place {key : TaskKey} {shares : List (Share Double)} (placed : e.places key = true)
      (listed : e.shares 2 = .ok shares) (idle : (r.history key).running = none) :
      Step r e ((r.see e).setHistory key
        { r.history key with running := some ⟨e.tick, shares⟩ })
  | finish {key : TaskKey} {current : Running} (ended : e.ends key = true)
      (running : (r.history key).running = some current) (ordered : current.start ≤ e.tick) :
      Step r e ((r.see e).setHistory key
        ⟨(r.history key).placements ++ [⟨current.start, e.tick, current.shares⟩], none⟩)
  | ending (kind : e.is .simulatorEnd = true) : Step r e { r.see e with endMark := some e.tick }
  | nothing (subject : e.subject = .nothing) : Step r e (r.see e)

/-- A row does not fit. It leaves its tick behind, and if it ends a task, then the name of the task
or a placement that is dropped. -/
inductive Refusal (r : Replay) (e : Event) : Replay → Prop
  | seen : Refusal r e (r.see e)
  | named {key : TaskKey} (ended : e.ends key = true) (idle : (r.history key).running = none) :
      Refusal r e ((r.see e).setHistory key (r.history key))
  | dropped {key : TaskKey} {current : Running} (ended : e.ends key = true)
      (running : (r.history key).running = some current) (early : e.tick < current.start) :
      Refusal r e ((r.see e).setHistory key { r.history key with running := none })

/-- Every row fits or is refused with a fault. -/
inductive Taken (r : Replay) (e : Event) : Outcome → Prop
  | fits {r' : Replay} (step : Step r e r') : Taken r e (r', none)
  | refused {r' : Replay} {fault : TraceFault} (refusal : Refusal r e r') :
      Taken r e (r', some fault)

/-! ## What rows of each kind do -/

theorem taken_declarePool (kind : e.is .workerPool = true) :
    Taken r e ((r.see e).declarePool e) := by
  unfold declarePool
  cases hp : e.pool with
  | error fault => exact .refused .seen
  | ok p => exact .fits (.pool kind hp)

theorem taken_releaseGraph (kind : e.is .graphRelease = true) :
    Taken r e ((r.see e).releaseGraph e) := by
  unfold releaseGraph
  cases hg : e.releasedGraph with
  | error fault => exact .refused .seen
  | ok g => exact .fits (.release kind hg)

theorem taken_markGraph {mark : TaskGraph → TaskGraph} (kind : e.isMark = true)
    (hmark : ∀ g, mark g = e.mark g) : Taken r e ((r.see e).markGraph e mark) := by
  unfold markGraph
  cases hid : e.graphId with
  | error fault => exact .refused .seen
  | ok id =>
    have hgraphs : (r.see e).graphs.get? id = r.graphs.get? id := rfl
    cases hg : r.graphs.get? id with
    | none =>
      simp only [hgraphs, hg]
      exact .refused .seen
    | some g =>
      simp only [hgraphs, hg, hmark]
      exact .fits (.mark kind (Event.param_eq_ok_iff.mp hid) hg)

theorem taken_nameTask (kind : e.is .taskRelease = true) :
    Taken r e ((r.see e).nameTask e) := by
  unfold nameTask
  cases hkey : e.taskKey with
  | error fault => exact .refused .seen
  | ok key => exact .fits (.name kind (Event.taskKey_eq_ok_iff.mp hkey))

theorem taken_placeTask (kind : e.is .taskPlacement = true) :
    Taken r e ((r.see e).placeTask e) := by
  unfold placeTask
  cases hs : e.shares 2 with
  | error fault => exact .refused .seen
  | ok shares =>
    cases hkey : e.taskKey with
    | error fault => exact .refused .seen
    | ok key =>
      have hplaced : e.places key = true :=
        Event.places_iff.mpr ⟨kind, Event.taskKey_eq_ok_iff.mp hkey⟩
      have hhistory : (r.see e).history key = r.history key := rfl
      cases hrun : (r.history key).running with
      | some current =>
        simp only [hhistory, hrun]
        exact .refused .seen
      | none =>
        simp only [hhistory, hrun]
        exact .fits (.place hplaced hs hrun)

/-- Only a row that ends a task can be refused and leave more behind than its tick: the placement
under way is taken off before its ticks are compared. -/
theorem taken_endTask (kind : e.is .taskFinished = true ∨ e.is .taskPreempt = true) :
    Taken r e ((r.see e).endTask e) := by
  unfold endTask
  cases hkey : e.taskKey with
  | error fault => exact .refused .seen
  | ok key =>
    have hended : e.ends key = true :=
      Event.ends_iff.mpr ⟨kind, Event.taskKey_eq_ok_iff.mp hkey⟩
    have hhistory : (r.see e).history key = r.history key := rfl
    cases hrun : (r.history key).running with
    | none =>
      simp only [hhistory, hrun]
      exact .refused (.named hended hrun)
    | some current =>
      simp only [hhistory, hrun]
      -- The placement under way is taken out before the ticks are compared.
      by_cases hlt : e.tick < current.start
      · rw [if_pos hlt]
        exact .refused (.dropped hended hrun hlt)
      · rw [if_neg hlt]
        exact .fits (.finish hended hrun (Nat.le_of_not_lt hlt))

/-- A row is dispatched by its kind. -/
theorem process_eq (r : Replay) (e : Event) : r.process e = match e.kind? with
    | some .workerPool => (r.see e).declarePool e
    | some .graphRelease => (r.see e).releaseGraph e
    | some .graphFinished => (r.see e).markGraph e fun g => { g with completed := true }
    | some .missedDeadline => (r.see e).markGraph e fun g => { g with missedDeadline := true }
    | some .graphCancel => (r.see e).markGraph e fun g => { g with cancelled := true }
    | some .taskRelease => (r.see e).nameTask e
    | some .taskPlacement => (r.see e).placeTask e
    | some .taskFinished | some .taskPreempt => (r.see e).endTask e
    | some .simulatorEnd => ({ r.see e with endMark := some e.tick }, none)
    | some .schedulerStart | some .schedulerFinished | some .logStats | none => (r.see e, none) :=
  rfl

theorem taken_process (r : Replay) (e : Event) : Taken r e (r.process e) := by
  rw [process_eq]
  cases hk : e.kind? with
  | none => exact .fits (.nothing (by rw [Event.subject, hk]))
  | some kind =>
    have hkind := Event.kind?_eq_some_iff.mp hk
    cases kind with
    | workerPool => exact taken_declarePool hkind
    | graphRelease => exact taken_releaseGraph hkind
    | graphFinished | missedDeadline | graphCancel =>
      exact taken_markGraph (by simp [Event.isMark, hkind])
        (fun g => by simp [Event.mark, Event.is_of_is hkind])
    | taskRelease => exact taken_nameTask hkind
    | taskPlacement => exact taken_placeTask hkind
    | taskFinished => exact taken_endTask (Or.inl hkind)
    | taskPreempt => exact taken_endTask (Or.inr hkind)
    | simulatorEnd => exact .fits (.ending hkind)
    | schedulerStart | schedulerFinished | logStats =>
      exact .fits (.nothing (Event.subject_of_is hkind))

/-- A row that fits makes a step. -/
theorem step_of_process (h : r.process e = (r', none)) : Step r e r' := by
  have htaken := taken_process r e
  rw [h] at htaken
  cases htaken with
  | fits step => exact step

/-- A row makes a step or is refused. -/
theorem step_or_refusal (r : Replay) (e : Event) :
    Step r e (r.process e).1 ∨ Refusal r e (r.process e).1 := by
  have htaken := taken_process r e
  generalize r.process e = outcome at htaken
  cases htaken with
  | fits step => exact Or.inl step
  | refused refusal => exact Or.inr refusal

/-! ## Runs -/

theorem run_cons_eq_ok_iff {rest : List Event} :
    r.run (e :: rest) = .ok r' ↔ ∃ next, r.process e = (next, none) ∧ next.run rest = .ok r' := by
  rw [run]
  cases hp : r.process e with
  | mk next fault =>
    cases fault with
    | none => simp
    | some fault => simp

theorem run_append {rows rest : List Event} :
    r.run (rows ++ rest) = (r.run rows).bind fun next => next.run rest := by
  induction rows generalizing r with
  | nil => rfl
  | cons e rows ih =>
    rw [List.cons_append, run, run]
    cases hp : r.process e with
    | mk next fault =>
      cases fault with
      | none => exact ih
      | some fault => rfl

theorem run_concat_eq_ok_iff {rows : List Event} :
    r.run (rows ++ [e]) = .ok r' ↔
      ∃ next, r.run rows = .ok next ∧ next.process e = (r', none) := by
  rw [run_append, bind_eq_ok_iff]
  refine exists_congr fun next => and_congr_right fun _ => ?_
  rw [run_cons_eq_ok_iff]
  constructor
  · rintro ⟨last, hp, hlast⟩
    cases hlast
    exact hp
  · intro hp
    exact ⟨r', hp, rfl⟩

/-! ## The parts of the state under a row that fits -/

/-- The pools change with a row that declares one. -/
inductive PoolsStep (e : Event) (pools : Keyed String (WorkerPool Double)) :
    Keyed String (WorkerPool Double) → Prop
  | idle (subject : e.subject ≠ .pool) : PoolsStep e pools pools
  | declared {p : WorkerPool Double} (kind : e.is .workerPool = true) (read : e.pool = .ok p) :
      PoolsStep e pools (pools.insert p.id p)

/-- The graphs change with a row that releases one or tells what became of it. -/
inductive GraphsStep (e : Event) (graphs : Keyed String TaskGraph) :
    Keyed String TaskGraph → Prop
  | idle (release : e.subject ≠ .release) (mark : e.subject ≠ .mark) : GraphsStep e graphs graphs
  | released {g : TaskGraph} (kind : e.is .graphRelease = true) (read : e.releasedGraph = .ok g) :
      GraphsStep e graphs (graphs.insert g.id g)
  | marked {id : String} {g : TaskGraph} (kind : e.isMark = true) (read : e.params[0]? = some id)
      (known : graphs.get? id = some g) : GraphsStep e graphs (graphs.insert id (e.mark g))

theorem Step.lastTick (h : Step r e r') : r'.lastTick = max r.lastTick e.tick := by
  cases h <;> rfl

theorem Step.endMark (h : Step r e r') :
    r'.endMark = if e.is .simulatorEnd then some e.tick else r.endMark := by
  have hidle : e.subject ≠ .ending →
      r.endMark = if e.is .simulatorEnd then some e.tick else r.endMark := by
    intro hsubject
    rw [Event.is_eq_false hsubject]
    rfl
  cases h with
  | pool kind | release kind | name kind =>
    exact hidle (by rw [Event.subject_of_is kind]; decide)
  | mark kind => exact hidle (by rw [Event.subject_of_isMark kind]; decide)
  | place placed => exact hidle (by rw [Event.subject_of_places placed]; decide)
  | finish ended => exact hidle (by rw [Event.subject_of_ends ended]; decide)
  | ending kind => rw [kind]; rfl
  | nothing subject => exact hidle (by rw [subject]; decide)

theorem Step.pools (h : Step r e r') : PoolsStep e r.pools r'.pools := by
  cases h with
  | pool kind read => exact .declared kind read
  | release kind | name kind | ending kind =>
    exact .idle (by rw [Event.subject_of_is kind]; decide)
  | mark kind => exact .idle (by rw [Event.subject_of_isMark kind]; decide)
  | place placed => exact .idle (by rw [Event.subject_of_places placed]; decide)
  | finish ended => exact .idle (by rw [Event.subject_of_ends ended]; decide)
  | nothing subject => exact .idle (by rw [subject]; decide)

theorem Step.graphs (h : Step r e r') : GraphsStep e r.graphs r'.graphs := by
  have hidle : e.subject ≠ .release ∧ e.subject ≠ .mark → GraphsStep e r.graphs r.graphs :=
    fun hsubject => .idle hsubject.1 hsubject.2
  cases h with
  | release kind read => exact .released kind read
  | mark kind read known => exact .marked kind read known
  | pool kind | name kind | ending kind =>
    exact hidle (by rw [Event.subject_of_is kind]; decide)
  | place placed => exact hidle (by rw [Event.subject_of_places placed]; decide)
  | finish ended => exact hidle (by rw [Event.subject_of_ends ended]; decide)
  | nothing subject => exact hidle (by rw [subject]; decide)

/-- The graphs that are known: those known before, and the one that the row releases. -/
theorem Step.mem_graphs (h : Step r e r') (id : String) :
    id ∈ r'.graphs.keys ↔ id ∈ r.graphs.keys ∨ e.releases id = true := by
  have hkept : e.subject ≠ .release →
      (id ∈ r.graphs.keys ↔ id ∈ r.graphs.keys ∨ e.releases id = true) := by
    intro hsubject
    rw [Event.releases, Event.is_eq_false hsubject]
    simp
  have hgraphs := h.graphs
  generalize r'.graphs = after at hgraphs
  cases hgraphs with
  | idle release mark => exact hkept release
  | released kind read =>
    obtain ⟨_, _, hid, _⟩ := Event.releasedGraph_eq_ok_iff.mp read
    refine Keyed.mem_keys_insert.trans (or_congr_right ?_)
    rw [Event.releases, kind, hid, Bool.true_and,
      decide_eq_true_eq, Option.some.injEq, eq_comm]
  | marked kind read known =>
    rw [← hkept (by rw [Event.subject_of_isMark kind]; decide)]
    refine Keyed.mem_keys_insert.trans ⟨fun hid => hid.elim (fun h => h) fun heq => ?_, Or.inl⟩
    rw [heq]
    exact Keyed.mem_keys_of_get? known

/-- A pool is as the row declares it, if it does. -/
theorem Step.get?_pools (h : Step r e r') (id : String) :
    r'.pools.get? id = if e.declares id then e.pool.toOption else r.pools.get? id := by
  have hpools := h.pools
  generalize r'.pools = after at hpools
  cases hpools with
  | idle subject =>
    rw [Event.declares, Event.is_eq_false subject]
    rfl
  | declared kind read =>
    have hid := (Event.pool_eq_ok_iff.mp read).1
    rw [Keyed.get?_insert, Event.declares, kind, hid, read]
    simp [Except.toOption]

/-- The tasks that are known, in their order: a row about a new task puts it at the end. -/
theorem Step.keys_tasks (h : Step r e r') :
    r'.tasks.keys =
      match (if e.isTaskRow then e.key? else none) with
      | some key => if key ∈ r.tasks.keys then r.tasks.keys else r.tasks.keys ++ [key]
      | none => r.tasks.keys := by
  have hidle : e.subject ≠ .task → (if e.isTaskRow then e.key? else none) = none := by
    intro hsubject
    rw [if_neg fun htask => hsubject (Event.isTaskRow_iff.mp htask)]
  cases h with
  | pool kind | release kind | ending kind =>
    rw [hidle (by rw [Event.subject_of_is kind]; decide)]
    rfl
  | mark kind =>
    rw [hidle (by rw [Event.subject_of_isMark kind]; decide)]
    rfl
  | nothing subject =>
    rw [hidle (by rw [subject]; decide)]
    rfl
  | name kind read =>
    rw [if_pos (Event.isTaskRow_iff.mpr (Event.subject_of_is kind)), read]
    exact Keyed.keys_insert _ _ _
  | place placed =>
    rw [if_pos (Event.isTaskRow_iff.mpr (Event.subject_of_places placed)),
      (Event.places_iff.mp placed).2]
    exact Keyed.keys_insert _ _ _
  | finish ended =>
    rw [if_pos (Event.isTaskRow_iff.mpr (Event.subject_of_ends ended)),
      (Event.ends_iff.mp ended).2]
    exact Keyed.keys_insert _ _ _

/-! ## A single task under a row -/

/-- What a row that fits is to one task. -/
inductive HistoryStep (e : Event) (key : TaskKey) (h : TaskHistory) : TaskHistory → Prop
  | idle (places : e.places key = false) (ends : e.ends key = false) : HistoryStep e key h h
  | placed {shares : List (Share Double)} (places : e.places key = true)
      (listed : e.shares 2 = .ok shares) (idle : h.running = none) :
      HistoryStep e key h { h with running := some ⟨e.tick, shares⟩ }
  | ended {current : Running} (ends : e.ends key = true) (running : h.running = some current)
      (ordered : current.start ≤ e.tick) :
      HistoryStep e key h ⟨h.placements ++ [⟨current.start, e.tick, current.shares⟩], none⟩

theorem history_setHistory (r : Replay) (key key' : TaskKey) (h : TaskHistory) :
    (r.setHistory key h).history key' = if key = key' then h else r.history key' := by
  have hget : (r.setHistory key h).tasks.get? key' =
      if key = key' then some h else r.tasks.get? key' := Keyed.get?_insert _ _ _ _
  unfold history
  rw [hget]
  split <;> rfl

theorem Step.history (h : Step r e r') (key : TaskKey) :
    HistoryStep e key (r.history key) (r'.history key) := by
  have hidle : e.subject ≠ .task → HistoryStep e key (r.history key) (r.history key) := by
    intro hsubject
    refine .idle (Bool.eq_false_iff.mpr fun hp => ?_) (Bool.eq_false_iff.mpr fun hp => ?_)
    · exact hsubject (Event.subject_of_places hp)
    · exact hsubject (Event.subject_of_ends hp)
  cases h with
  | pool kind | release kind | ending kind =>
    exact hidle (by rw [Event.subject_of_is kind]; decide)
  | mark kind => exact hidle (by rw [Event.subject_of_isMark kind]; decide)
  | nothing subject => exact hidle (by rw [subject]; decide)
  | @name key' kind read =>
    rw [history_setHistory]
    have hkeep : HistoryStep e key (r.history key) (r.history key) :=
      .idle (by simp [Event.places, Event.is_of_is kind])
        (by simp [Event.ends, Event.is_of_is kind])
    split
    · rename_i heq
      rw [heq]
      exact hkeep
    · exact hkeep
  | @place key' shares placed listed idle =>
    rw [history_setHistory]
    obtain ⟨kind, read⟩ := Event.places_iff.mp placed
    split
    · rename_i heq
      subst heq
      exact .placed placed listed idle
    · rename_i hne
      refine .idle ?_ (Event.ends_eq_false_of_is kind key)
      simp [Event.places, read, hne]
  | @finish key' current ended running ordered =>
    rw [history_setHistory]
    have read := (Event.ends_iff.mp ended).2
    split
    · rename_i heq
      subst heq
      exact .ended ended running ordered
    · rename_i hne
      refine .idle (Event.places_eq_false_of_ends ended key) ?_
      simp [Event.ends, read, hne]

/-! ## The parts of the state after a refusal -/

theorem Refusal.pools (h : Refusal r e r') : r'.pools = r.pools := by
  cases h <;> rfl

theorem Refusal.graphs (h : Refusal r e r') : r'.graphs = r.graphs := by
  cases h <;> rfl

/-- A task keeps its completed placements; at most the one under way is lost. -/
theorem Refusal.history (h : Refusal r e r') (key : TaskKey) :
    r'.history key = r.history key ∨
      r'.history key = { r.history key with running := none } := by
  cases h with
  | seen => exact Or.inl rfl
  | @named named ended idle =>
    rw [history_setHistory]
    split
    · rename_i heq
      exact Or.inl (heq ▸ rfl)
    · exact Or.inl rfl
  | @dropped named current ended running early =>
    rw [history_setHistory]
    split
    · rename_i heq
      exact Or.inr (heq ▸ rfl)
    · exact Or.inl rfl

/-! ## Any rows -/

/-- What fitting and refused rows both keep holds after any rows. -/
theorem processAll_induction {motive : Replay → Prop} (hr : motive r)
    (hstep : ∀ {r r' : Replay} {e : Event}, motive r → Step r e r' → motive r')
    (hrefusal : ∀ {r r' : Replay} {e : Event}, motive r → Refusal r e r' → motive r')
    (events : List Event) : motive (r.processAll events) := by
  induction events generalizing r with
  | nil => exact hr
  | cons e rest ih =>
    refine ih ?_
    rcases step_or_refusal r e with h | h
    · exact hstep hr h
    · exact hrefusal hr h

end Replay

end ClusterTrace
