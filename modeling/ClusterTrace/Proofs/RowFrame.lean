import ClusterTrace.Proofs.ReplayStep

/-!
# What a row leaves alone

Whether a row fits or not, it changes little. Pools, graphs and tasks stay in their places and new
ones come last. No task changes but the one that the row names, and that one keeps its completed
placements, with at most one more behind them.

A row that does not fit leaves its tick and mostly nothing else. Only the end of a task is
different: the task may be new, and then its name stays. And if the end comes before the begin, the
placement under way is gone.
-/

namespace ClusterTrace

/-- The task that a row is about. -/
def Event.task? (e : Event) : Option TaskKey := if e.isTaskRow then e.key? else none

namespace Replay

variable {r r' : Replay} {e : Event}

/-- What stays as it was in the state `r` when the row `e` takes it to `r'`. -/
structure Kept (r : Replay) (e : Event) (r' : Replay) : Prop where
  pools : r.pools.keys <+: r'.pools.keys
  graphs : r.graphs.keys <+: r'.graphs.keys
  tasks : r.tasks.keys <+: r'.tasks.keys
  others : ∀ key, e.task? ≠ some key → r'.tasks.get? key = r.tasks.get? key
  /-- Completed placements stay, and at most one more comes behind them. -/
  placements : ∀ key, ∃ more, (r'.history key).placements = (r.history key).placements ++ more ∧
    more.length ≤ 1

/-- What a row that does not fit may leave behind. -/
inductive Leftover (r : Replay) (e : Event) : Replay → Prop
  | tick : Leftover r e { r with lastTick := max r.lastTick e.tick }
  | name {key : TaskKey} {tasks : Keyed TaskKey TaskHistory} (ended : e.ends key = true)
      (new : key ∉ r.tasks.keys) (last : tasks.entries = r.tasks.entries ++ [(key, .fresh)]) :
      Leftover r e { r with lastTick := max r.lastTick e.tick, tasks }
  | dropped {key : TaskKey} {h : TaskHistory} {current : Running} (ended : e.ends key = true)
      (known : r.tasks.get? key = some h) (running : h.running = some current)
      (early : e.tick < current.start) :
      Leftover r e
        { r with
          lastTick := max r.lastTick e.tick
          tasks := r.tasks.map fun k h => if k = key then { h with running := none } else h }

/-- The row cannot place its task: its resources cannot be read, or the task runs. -/
def Unplaceable (r : Replay) (e : Event) : Prop :=
  (∃ fault, e.shares 2 = .error fault) ∨
    ∃ key current, e.key? = some key ∧ (r.history key).running = some current

/-! ## The tasks under any row -/

/-- The tasks after a row: as before, or with another history of the task that it names. -/
inductive TasksWritten (r : Replay) (e : Event) : Keyed TaskKey TaskHistory → Prop
  | idle : TasksWritten r e r.tasks
  | written {key : TaskKey} {h : TaskHistory} {more : List (Placement Double)}
      (named : e.task? = some key) (grown : h.placements = (r.history key).placements ++ more)
      (one : more.length ≤ 1) : TasksWritten r e (r.tasks.insert key h)

/-- A row about a task that names one writes to the entry of this task alone. -/
theorem task?_of_subject {key : TaskKey} (h : e.subject = .task) (hkey : e.key? = some key) :
    e.task? = some key := by
  have hrow : e.isTaskRow = true := Event.isTaskRow_iff.mpr h
  simp [Event.task?, hrow, hkey]

theorem task?_of_ends {key : TaskKey} (h : e.ends key = true) : e.task? = some key :=
  task?_of_subject (Event.subject_of_ends h) (Event.ends_iff.mp h).2

/-- A row that is accepted writes to no task but its own. -/
theorem Step.tasks (h : Step r e r') : TasksWritten r e r'.tasks := by
  cases h with
  | pool | release | mark | ending | nothing => exact .idle
  | name kind read =>
    have hnamed := task?_of_subject (Event.subject_of_is kind) read
    exact .written hnamed (List.append_nil _).symm (Nat.zero_le 1)
  | place placed =>
    have hnamed := task?_of_subject (Event.subject_of_places placed) (Event.places_iff.mp placed).2
    exact .written hnamed (List.append_nil _).symm (Nat.zero_le 1)
  | finish ended => exact .written (task?_of_ends ended) rfl (Nat.le_refl 1)

theorem Refusal.tasks (h : Refusal r e r') : TasksWritten r e r'.tasks := by
  cases h with
  | seen => exact .idle
  | named ended | dropped ended =>
    exact .written (task?_of_ends ended) (List.append_nil _).symm (Nat.zero_le 1)

/-- A pool that is declared keeps its place among the pools, and a new one comes last. -/
theorem PoolsStep.keys_prefix {pools pools' : Keyed String (WorkerPool Double)}
    (h : PoolsStep e pools pools') : pools.keys <+: pools'.keys := by
  cases h with
  | idle => exact List.prefix_refl _
  | declared => exact Keyed.keys_prefix_insert _ _ _

/-- A graph keeps its place among the graphs, also if it is released again. -/
theorem GraphsStep.keys_prefix {graphs graphs' : Keyed String TaskGraph}
    (h : GraphsStep e graphs graphs') : graphs.keys <+: graphs'.keys := by
  cases h with
  | idle => exact List.prefix_refl _
  | released => exact Keyed.keys_prefix_insert _ _ _
  | marked => exact Keyed.keys_prefix_insert _ _ _

/-! ## What stays -/

/-- What a row keeps of the rest follows from what it writes to the tasks and from the keys that it
leaves in their places. -/
theorem Kept.of_tasks (hpools : r.pools.keys <+: r'.pools.keys)
    (hgraphs : r.graphs.keys <+: r'.graphs.keys) (htasks : TasksWritten r e r'.tasks) :
    Kept r e r' := by
  have hhistory : ∀ key, r'.history key = (r'.tasks.get? key).getD .fresh := fun _ => rfl
  generalize htasks' : r'.tasks = tasks at htasks hhistory
  cases htasks with
  | idle =>
    refine ⟨hpools, hgraphs, htasks' ▸ List.prefix_rfl, ?_, ?_⟩
    · intro key _
      rw [htasks']
    · intro key
      exact ⟨[], by rw [hhistory, List.append_nil]; rfl, Nat.zero_le 1⟩
  | @written named h more hnamed hgrown hone =>
    refine ⟨hpools, hgraphs, ?_, ?_, ?_⟩
    · rw [htasks']
      exact Keyed.keys_prefix_insert _ _ _
    · intro key hother
      have hne : ¬ named = key := fun heq => hother (heq ▸ hnamed)
      rw [htasks', Keyed.get?_insert, if_neg hne]
    · intro key
      rw [hhistory, Keyed.get?_insert]
      by_cases heq : named = key
      · subst heq
        exact ⟨more, by rw [if_pos rfl]; exact hgrown, hone⟩
      · exact ⟨[], by rw [if_neg heq, List.append_nil]; rfl, Nat.zero_le 1⟩

/-- Every row, accepted or refused, keeps all that it is not about. -/
theorem kept_process (r : Replay) (e : Event) : Kept r e (r.process e).1 := by
  rcases step_or_refusal r e with h | h
  · exact .of_tasks h.pools.keys_prefix h.graphs.keys_prefix h.tasks
  · have hpools : r.pools.keys <+: (r.process e).1.pools.keys :=
      h.pools ▸ List.prefix_rfl
    have hgraphs : r.graphs.keys <+: (r.process e).1.graphs.keys :=
      h.graphs ▸ List.prefix_rfl
    exact .of_tasks hpools hgraphs h.tasks

/-! ## What a refused row leaves -/

theorem history_of_get? {key : TaskKey} {h : TaskHistory} (hget : r.tasks.get? key = some h) :
    r.history key = h := by
  rw [history, hget]
  rfl

/-- A task that is not in the table has the history of one about which nothing has been said. -/
theorem history_of_not_mem {key : TaskKey} (h : key ∉ r.tasks.keys) :
    r.history key = .fresh := by
  rw [history, Keyed.get?_eq_none_iff.mpr h]
  rfl

/-- A refused row leaves its tick behind. Only the end of a task leaves more: the name of a task
that is new, or a task without the placement that would end too early. -/
theorem Refusal.leftover (h : Refusal r e r') : Leftover r e r' := by
  cases h with
  | seen => exact .tick
  | @named key ended idle =>
    cases hget : r.tasks.get? key with
    | none =>
      have hnew : key ∉ r.tasks.keys := Keyed.get?_eq_none_iff.mp hget
      rw [history_of_not_mem hnew]
      exact .name ended hnew (Keyed.entries_insert_of_not_mem hnew _)
    | some h =>
      -- The history is written back as it was found.
      have hsame : (r.see e).setHistory key (r.history key) = r.see e := by
        have hwrite : r.tasks.insert key h = r.tasks := Keyed.insert_of_get? hget
        rw [history_of_get? hget, setHistory, see, hwrite]
      rw [hsame]
      exact .tick
  | @dropped key current ended running early =>
    cases hget : r.tasks.get? key with
    | none =>
      rw [history_of_not_mem (Keyed.get?_eq_none_iff.mp hget)] at running
      cases running
    | some h =>
      have hwrite := Keyed.insert_eq_map hget fun h => { h with running := none }
      rw [history_of_get? hget] at running ⊢
      rw [setHistory, see, hwrite]
      exact .dropped ended hget running early

/-- This holds of every call that fails, whatever the state was before. -/
theorem leftover_process {fault : TraceFault} (h : (r.process e).2 = some fault) :
    Leftover r e (r.process e).1 := by
  have htaken := taken_process r e
  generalize r.process e = outcome at h htaken
  cases htaken with
  | fits => cases h
  | refused refusal => exact refusal.leftover

/-- The resources of a row are read before its task is looked up, so nothing is written. -/
theorem process_of_unplaceable (kind : e.is .taskPlacement = true) (h : Unplaceable r e) :
    ∃ fault, r.process e = ({ r with lastTick := max r.lastTick e.tick }, some fault) := by
  have hprocess : r.process e = (r.see e).placeTask e := by
    rw [process_eq, Event.kind?_eq_some_iff.mpr kind]
  rw [hprocess, placeTask]
  cases hshares : e.shares 2 with
  | error fault => exact ⟨fault, rfl⟩
  | ok shares =>
    rcases h with ⟨fault, hfault⟩ | ⟨key, current, hkey, hrunning⟩
    · rw [hshares] at hfault
      cases hfault
    · have hhistory : (r.see e).history key = r.history key := rfl
      rw [Event.taskKey_eq_ok_iff.mpr hkey]
      simp only [hhistory, hrunning]
      exact ⟨_, rfl⟩

/-- No row, whether it fits or not, moves or loses a pool, a graph or a task, changes a task that it
does not name, or touches a completed placement; it adds at most one, behind the others of the task.
A row that does not fit leaves its tick and at most the name of a new task that it ends, or it takes
the placement that it would end too early. One that cannot place its task leaves its tick only. -/
theorem process_frame (r : Replay) (e : Event) :
    Kept r e (r.process e).1 ∧
      (∀ fault, (r.process e).2 = some fault → Leftover r e (r.process e).1) ∧
      (e.is .taskPlacement = true → Unplaceable r e →
        ∃ fault, r.process e = ({ r with lastTick := max r.lastTick e.tick }, some fault)) := by
  refine ⟨kept_process r e, ?_, ?_⟩
  · intro fault h
    exact leftover_process h
  · intro kind h
    exact process_of_unplaceable kind h

/-- A task is under way. -/
def busy : Replay := start.processAll [⟨1, 6, "TASK_PLACEMENT", ["g0", "t1", "GPU", "1"]⟩]

/-- Its end comes too early, it is placed once more, and a task ends that nobody knows. -/
theorem busy_frame :
    (Leftover busy ⟨2, 4, "TASK_FINISHED", ["g0", "t1"]⟩
        (busy.process ⟨2, 4, "TASK_FINISHED", ["g0", "t1"]⟩).1 ∧
      (busy.process ⟨2, 4, "TASK_FINISHED", ["g0", "t1"]⟩).1.history ⟨"g0", "t1"⟩ = .fresh) ∧
    (∃ fault, busy.process ⟨3, 7, "TASK_PLACEMENT", ["g0", "t1", "GPU", "2"]⟩ =
      ({ busy with lastTick := max busy.lastTick 7 }, some fault)) ∧
    (Leftover busy ⟨4, 8, "TASK_PREEMPT", ["g0", "t0"]⟩
        (busy.process ⟨4, 8, "TASK_PREEMPT", ["g0", "t0"]⟩).1 ∧
      (busy.process ⟨4, 8, "TASK_PREEMPT", ["g0", "t0"]⟩).1.tasks.keys =
        [⟨"g0", "t1"⟩, ⟨"g0", "t0"⟩]) := by
  have hearly : (busy.process ⟨2, 4, "TASK_FINISHED", ["g0", "t1"]⟩).2 =
      some (.malformedRow 2 (.endsBeforePlacement "t1" 4 6)) := by decide +kernel
  have hunknown : (busy.process ⟨4, 8, "TASK_PREEMPT", ["g0", "t0"]⟩).2 =
      some (.malformedRow 4 (.notRunning "t0")) := by decide +kernel
  have hbusy : (busy.history ⟨"g0", "t1"⟩).running = some ⟨6, [⟨"GPU", Double.ofNat 1⟩]⟩ := by
    decide +kernel
  refine ⟨⟨(process_frame busy _).2.1 _ hearly, by decide +kernel⟩, ?_,
    (process_frame busy _).2.1 _ hunknown, by decide +kernel⟩
  exact (process_frame busy _).2.2 (by decide) (.inr ⟨_, _, rfl, hbusy⟩)

end Replay

end ClusterTrace
