import ClusterTrace.Proofs.WellFormed

/-!
# The fault of a row

Which fault a row that does not fit is reported with. A row may be wrong in several ways at a time;
the fields are read in an order of their own for each kind of row, and the first that is wrong is
reported. What must have come before the row is looked at last.
-/

namespace ClusterTrace

/-- The text of a quantity is refused. -/
inductive QuantityFails (e : Event) (text : String) : TraceFault → Prop
  | unreadable (unread : Double.read? text = none) :
      QuantityFails e text (e.notNumeric "resource_quantity" text)
  | improper {x : Double} (read : Double.read? text = some x)
      (improper : x.isFinite = false ∨ x.less Double.zero = true) :
      QuantityFails e text (e.notNumeric "resource_quantity" (NumberStyle.plain.text x))

/-- The list of resources in some fields is refused: there is a name without a quantity, or else the
first quantity that is wrong. -/
inductive SharesFail (e : Event) (fields : List String) : TraceFault → Prop
  | unpaired (odd : fields.length % 2 ≠ 0) :
      SharesFail e fields (e.malformed (.unpairedResource e.kind))
  | quantity {good rest : List String} {name text : String} {fault : TraceFault}
      (even : fields.length % 2 = 0) (split : fields = good ++ name :: text :: rest)
      (earlier : ListsResources good) (fails : QuantityFails e text fault) :
      SharesFail e fields fault

/-- The number at an index is refused. -/
inductive NumberFails (e : Event) (index : Nat) (field : String) : TraceFault → Prop
  | missing (none : e.params[index]? = none) :
      NumberFails e index field (e.missing index field)
  | unreadable {text : String} (some : e.params[index]? = some text)
      (unread : readNatural? text = none) :
      NumberFails e index field (e.notNumeric field text)

/-- A row that declares a pool is refused. -/
inductive PoolFails (e : Event) : TraceFault → Prop
  | id (none : e.params = []) : PoolFails e (e.missing 0 "pool_id")
  | shares {fault : TraceFault} (some : e.params ≠ [])
      (fails : SharesFail e (e.params.drop 1) fault) : PoolFails e fault

/-- A row that releases a graph is refused. The name of the graph is looked at before the last
field. -/
inductive ReleaseFails (e : Event) : TraceFault → Prop
  | release {fault : TraceFault} (fails : NumberFails e 0 "release_tick" fault) :
      ReleaseFails e fault
  | deadline {fault : TraceFault} (release : IsNatural e.params[0]?)
      (fails : NumberFails e 1 "deadline_tick" fault) : ReleaseFails e fault
  | id (release : IsNatural e.params[0]?) (deadline : IsNatural e.params[1]?)
      (none : e.params[2]? = none) : ReleaseFails e (e.missing 2 "task_graph_id")
  | path {text : String} (release : IsNatural e.params[0]?) (deadline : IsNatural e.params[1]?)
      (long : 3 ≤ e.params.length) (last : e.params.getLast? = some text)
      (unread : readNatural? text = none) :
      ReleaseFails e (e.notNumeric "critical_path_runtime" text)

/-- A row about what became of a graph is refused. -/
inductive MarkFails (before : List Event) (e : Event) : TraceFault → Prop
  | id (none : e.params = []) : MarkFails before e (e.missing 0 "task_graph_id")
  | unknown {graph : String} (some : e.params[0]? = some graph) (never : ¬ Released before graph) :
      MarkFails before e (e.malformed (.graphNotReleased e.kind graph))

/-- The name of a task is refused. -/
inductive KeyFails (e : Event) : TraceFault → Prop
  | graph (none : e.params = []) : KeyFails e (e.missing 0 "task_graph_id")
  | task (single : e.params.length = 1) : KeyFails e (e.missing 1 "task_id")

/-- A row that places a task is refused. Its resources are looked at before its names. -/
inductive PlacementFails (before : List Event) (e : Event) : TraceFault → Prop
  | shares {fault : TraceFault} (fails : SharesFail e (e.params.drop 2) fault) :
      PlacementFails before e fault
  | key {fault : TraceFault} (listed : ListsResources (e.params.drop 2))
      (fails : KeyFails e fault) : PlacementFails before e fault
  | running {key : TaskKey} {a : Event} (listed : ListsResources (e.params.drop 2))
      (named : e.key? = some key) (running : openRow? before key = some a) :
      PlacementFails before e (e.malformed (.alreadyRunning key.task))

/-- A row that ends a task is refused. -/
inductive EndFails (before : List Event) (e : Event) : TraceFault → Prop
  | key {fault : TraceFault} (fails : KeyFails e fault) : EndFails before e fault
  | idle {key : TaskKey} (named : e.key? = some key) (idle : openRow? before key = none) :
      EndFails before e (e.malformed (.notRunning key.task))
  | early {key : TaskKey} {a : Event} (named : e.key? = some key)
      (running : openRow? before key = some a) (early : e.tick < a.tick) :
      EndFails before e (e.malformed (.endsBeforePlacement key.task e.tick a.tick))

/-- A row does not fit after the rows before it, and this is the fault. -/
def RowFails (before : List Event) (e : Event) (fault : TraceFault) : Prop :=
  match e.kind? with
  | some .workerPool => PoolFails e fault
  | some .graphRelease => ReleaseFails e fault
  | some .graphFinished | some .missedDeadline | some .graphCancel => MarkFails before e fault
  | some .taskRelease => KeyFails e fault
  | some .taskPlacement => PlacementFails before e fault
  | some .taskFinished | some .taskPreempt => EndFails before e fault
  | some .simulatorEnd | some .schedulerStart | some .schedulerFinished | some .logStats
  | none => False

/-! ## What the readers of rows refuse -/

namespace Event

variable {e : Event} {fault : TraceFault}

/-- The reader of a quantity reports the text as it stands if that is no number, and else the number
if it is infinite, undefined or negative. -/
theorem quantity_eq_error_iff {text : String} :
    e.quantity text = .error fault ↔ QuantityFails e text fault := by
  unfold quantity parse
  constructor
  · intro h
    cases hr : Double.read? text with
    | none =>
      rw [hr] at h
      cases h
      exact .unreadable hr
    | some x =>
      simp only [hr, Except.bind] at h
      split at h
      · rename_i hbad
        cases h
        exact .improper hr (by simpa using hbad)
      · cases h
  · intro h
    cases h with
    | unreadable unread => simp [unread, Except.bind]
    | @improper x read improper =>
      have hbad : (!x.isFinite || x.less Double.zero) = true := by simpa using improper
      simp [read, Except.bind, hbad]

/-- Of several quantities that are wrong the first one is reported. The names between them are never
at fault. -/
theorem pairs_eq_error_iff {fields : List String} (heven : fields.length % 2 = 0) :
    e.pairs fields = .error fault ↔ ∃ good name text rest,
      fields = good ++ name :: text :: rest ∧ ListsResources good ∧ QuantityFails e text fault := by
  induction fields using resourceNames.induct with
  | case1 name text rest ih =>
    have hrest : rest.length % 2 = 0 := by simp only [List.length_cons] at heven; omega
    simp only [pairs, bind_eq_error_iff, map_eq_error_iff, quantity_eq_error_iff,
      quantity_eq_ok_iff, ih hrest]
    constructor
    · rintro (hfails |
        ⟨x, ⟨hread, hfin, hneg⟩, good, name', text', rest', heq, ⟨shares, hgood⟩, hfails⟩)
      · exact ⟨[], name, text, rest, rfl, ⟨[], .nil⟩, hfails⟩
      · exact ⟨name :: text :: good, name', text', rest', by rw [heq]; rfl,
          ⟨_, .cons hread hfin hneg hgood⟩, hfails⟩
    · rintro ⟨good, name', text', rest', heq, ⟨shares, hgood⟩, hfails⟩
      cases hgood with
      | nil =>
        obtain ⟨-, rfl, -⟩ : name = name' ∧ text = text' ∧ rest = rest' := by simpa using heq
        exact Or.inl hfails
      | cons hread hfin hneg hgood =>
        simp only [List.cons_append, List.cons.injEq] at heq
        obtain ⟨rfl, rfl, heq⟩ := heq
        exact Or.inr ⟨_, ⟨hread, hfin, hneg⟩, _, _, _, _, heq, ⟨_, hgood⟩, hfails⟩
  | case2 fields hshort =>
    have hlength : ∀ good name text rest, fields ≠ good ++ name :: text :: rest := by
      intro good name text rest heq
      cases good with
      | nil => exact hshort name text rest heq
      | cons first good =>
        cases good with
        | nil => exact hshort first name (text :: rest) heq
        | cons second good => exact hshort first second (good ++ name :: text :: rest) heq
    constructor
    · intro h
      rw [pairs] at h
      · cases h
      · exact hshort
    · rintro ⟨good, name, text, rest, heq, -⟩
      exact absurd heq (hlength good name text rest)

/-- The reader of the resources counts the fields before it looks at any of them, so a name without
a quantity hides all quantities that are wrong. -/
theorem shares_eq_error_iff {start : Nat} :
    e.shares start = .error fault ↔ SharesFail e (e.params.drop start) fault := by
  unfold Event.shares paramsFrom
  by_cases heven : (e.params.drop start).length % 2 = 0
  · simp only [if_pos heven, pairs_eq_error_iff heven]
    constructor
    · rintro ⟨good, name, text, rest, hsplit, hgood, hfails⟩
      exact .quantity heven hsplit hgood hfails
    · intro h
      cases h with
      | unpaired odd => exact absurd heven odd
      | quantity _ split earlier fails => exact ⟨_, _, _, _, split, earlier, fails⟩
  · simp only [if_neg heven, Except.error.injEq]
    constructor
    · rintro rfl
      exact .unpaired heven
    · intro h
      cases h with
      | unpaired => rfl
      | quantity even => exact absurd even heven

/-- A field is only missing if the row ends before it. An empty field is there. -/
theorem param_eq_error_iff {index : Nat} {field : String} :
    e.param index field = .error fault ↔
      e.params[index]? = none ∧ fault = e.missing index field := by
  unfold param
  cases e.params[index]? <;> simp [eq_comm]

/-- What cannot be read is reported with the name of the field and the text that stands in it. -/
theorem parse_eq_error_iff {α : Type} {read : String → Option α} {value field : String} :
    e.parse read value field = .error fault ↔
      read value = none ∧ fault = e.notNumeric field value := by
  unfold parse
  cases read value <;> simp [eq_comm]

/-- A number is at fault if its field is missing, or if the field is there and holds none. -/
theorem parseParam_eq_error_iff {index : Nat} {field : String} :
    e.parseParam readNatural? index field = .error fault ↔ NumberFails e index field fault := by
  unfold parseParam
  simp only [bind_eq_error_iff, param_eq_error_iff, param_eq_ok_iff, parse_eq_error_iff]
  constructor
  · rintro (⟨hnone, rfl⟩ | ⟨text, hsome, hunread, rfl⟩)
    · exact .missing hnone
    · exact .unreadable hsome hunread
  · intro h
    cases h with
    | missing none => exact Or.inl ⟨none, rfl⟩
    | unreadable some unread => exact Or.inr ⟨_, some, unread, rfl⟩

/-- The declaration of a pool is at fault if it has no name for it, or else in its resources. -/
theorem pool_eq_error_iff : e.pool = .error fault ↔ PoolFails e fault := by
  unfold Event.pool
  simp only [bind_eq_error_iff, map_eq_error_iff, param_eq_error_iff, param_eq_ok_iff,
    shares_eq_error_iff, List.getElem?_eq_none_iff, Nat.le_zero, List.length_eq_zero_iff]
  constructor
  · rintro (⟨hnone, rfl⟩ | ⟨id, hsome, hfails⟩)
    · exact .id hnone
    · exact .shares (fun hnil => by simp [hnil] at hsome) hfails
  · intro h
    cases h with
    | id none => exact Or.inl ⟨none, rfl⟩
    | shares some fails =>
      obtain ⟨id, rest, heq⟩ := List.exists_cons_of_ne_nil some
      exact Or.inr ⟨id, by rw [heq]; rfl, fails⟩

/-- The name of a task has two parts, and the first of them that is missing is reported. -/
theorem taskKey_eq_error_iff : e.taskKey = .error fault ↔ KeyFails e fault := by
  rw [taskKey_eq]
  constructor
  · intro h
    match hp : e.params, h with
    | [], h => cases h; exact .graph hp
    | [_], h => cases h; exact .task (by rw [hp]; rfl)
    | _ :: _ :: _, h => cases h
  · intro h
    cases h with
    | graph none => rw [none]
    | task single =>
      obtain ⟨graph, hp⟩ := List.length_eq_one_iff.mp single
      rw [hp]

/-- The last field of a row is missing only if there is none at all; otherwise it is read, whatever
its place is. -/
theorem parseLast_eq_error_iff {field : String} :
    e.parseLast readNatural? field = .error fault ↔
      (e.params.getLast? = none ∧ fault = e.missing 0 field) ∨
        ∃ text, e.params.getLast? = some text ∧ readNatural? text = none ∧
          fault = e.notNumeric field text := by
  unfold parseLast
  cases e.params.getLast? with
  | none => simp [eq_comm]
  | some text => simp [parse_eq_error_iff]

/-- The release of a graph is read field by field: both ticks, then the name and then the critical
path. So each fault implies that the fields before it are in order. -/
theorem releasedGraph_eq_error_iff : e.releasedGraph = .error fault ↔ ReleaseFails e fault := by
  change (Except.bind _ _ = _) ↔ _
  simp only [bind_eq_error_iff, bind, pure, Except.pure, parseParam_eq_error_iff,
    parseParam_eq_ok_iff, parseLast_eq_error_iff, param_eq_error_iff, param_eq_ok_iff]
  constructor
  · rintro (hfails | ⟨a, ⟨first, hfirst, ha⟩, hrest⟩)
    · exact .release hfails
    rcases hrest with hfails | ⟨b, ⟨second, hsecond, hb⟩, hrest⟩
    · exact .deadline ⟨first, a, hfirst, ha⟩ hfails
    rcases hrest with ⟨hnone, rfl⟩ | ⟨id, hid, hrest⟩
    · exact .id ⟨first, a, hfirst, ha⟩ ⟨second, b, hsecond, hb⟩ hnone
    have hlong := (List.getElem?_eq_some_iff.mp hid).1
    rcases hrest with (⟨hnil, -⟩ | ⟨text, hlast, hunread, rfl⟩) | ⟨_, _, hok⟩
    · rw [List.getLast?_eq_none_iff.mp hnil] at hlong
      exact absurd hlong (Nat.not_lt_zero 2)
    · exact .path ⟨first, a, hfirst, ha⟩ ⟨second, b, hsecond, hb⟩ hlong hlast hunread
    · cases hok
  · intro h
    cases h with
    | release fails => exact Or.inl fails
    | deadline release fails =>
      obtain ⟨first, a, hfirst, ha⟩ := release
      exact Or.inr ⟨a, ⟨first, hfirst, ha⟩, Or.inl fails⟩
    | id release deadline none =>
      obtain ⟨first, a, hfirst, ha⟩ := release
      obtain ⟨second, b, hsecond, hb⟩ := deadline
      exact Or.inr ⟨a, ⟨first, hfirst, ha⟩, Or.inr ⟨b, ⟨second, hsecond, hb⟩, Or.inl ⟨none, rfl⟩⟩⟩
    | path release deadline long last unread =>
      obtain ⟨first, a, hfirst, ha⟩ := release
      obtain ⟨second, b, hsecond, hb⟩ := deadline
      exact Or.inr ⟨a, ⟨first, hfirst, ha⟩, Or.inr ⟨b, ⟨second, hsecond, hb⟩,
        Or.inr ⟨_, List.getElem?_eq_getElem long, Or.inl (Or.inr ⟨_, last, unread, rfl⟩)⟩⟩⟩

end Event

/-! ## The rows that a replay refuses -/

namespace Replay

variable {before : List Event} {r : Replay} {e : Event} {fault : TraceFault}

/-- A task runs after some rows if one of them places it and no later one ends it. -/
theorem Reflects.running_eq_none_iff (hr : r.Reflects before) {key : TaskKey} :
    (r.history key).running = none ↔ openRow? before key = none := by
  rw [← Option.map_eq_none_iff, hr.running key, Option.map_eq_none_iff]

/-- The placement under way and the row that began it. -/
theorem Reflects.running_iff (hr : r.Reflects before) {key : TaskKey} {tick : Nat} :
    (∃ current, (r.history key).running = some current ∧ current.start = tick) ↔
      ∃ a, openRow? before key = some a ∧ a.tick = tick := by
  rw [← Option.map_eq_some_iff, hr.running key, Option.map_eq_some_iff]

/-- Declaring a pool fails only if the row cannot be read. It asks nothing of the rows before. -/
theorem declarePool_fault_iff : ((r.see e).declarePool e).2 = some fault ↔ PoolFails e fault := by
  rw [← Event.pool_eq_error_iff]
  unfold declarePool
  cases e.pool <;> simp

/-- Releasing a graph fails only if the row cannot be read: a graph may be released more than
once. -/
theorem releaseGraph_fault_iff :
    ((r.see e).releaseGraph e).2 = some fault ↔ ReleaseFails e fault := by
  rw [← Event.releasedGraph_eq_error_iff]
  unfold releaseGraph
  cases e.releasedGraph <;> simp

/-- Naming a task fails only if its name is not complete, whether or not the task is known
already. -/
theorem nameTask_fault_iff : ((r.see e).nameTask e).2 = some fault ↔ KeyFails e fault := by
  rw [← Event.taskKey_eq_error_iff]
  unfold nameTask
  cases e.taskKey <;> simp

/-- Saying what became of a graph fails if the row has no name for it, or if no row before releases
a graph of this name. -/
theorem markGraph_fault_iff (hr : r.Reflects before) (mark : TaskGraph → TaskGraph) :
    ((r.see e).markGraph e mark).2 = some fault ↔ MarkFails before e fault := by
  have hfails : MarkFails before e fault ↔ e.graphId = .error fault ∨
      ∃ id, e.graphId = .ok id ∧ (r.see e).graphs.get? id = none ∧
        fault = e.malformed (.graphNotReleased e.kind id) := by
    have hgraphs : ∀ id, (r.see e).graphs.get? id = none ↔ ¬ Released before id := fun id =>
      Keyed.get?_eq_none_iff.trans (not_congr (hr.graphs id))
    simp only [Event.graphId, Event.param_eq_error_iff, Event.param_eq_ok_iff, hgraphs]
    constructor
    · intro h
      cases h with
      | id none => exact Or.inl ⟨by rw [none]; rfl, rfl⟩
      | unknown some never => exact Or.inr ⟨_, some, never, rfl⟩
    · rintro (⟨none, rfl⟩ | ⟨id, some, never, rfl⟩)
      · exact .id (by simpa using none)
      · exact .unknown some never
  rw [hfails]
  unfold markGraph
  cases e.graphId with
  | error err => simp
  | ok id => cases hg : (r.see e).graphs.get? id <;> simp [hg, eq_comm]

/-- Placing a task fails if the resources cannot be read, or else if its name is not complete, or
else if it runs already. This is the order in which the function checks them. -/
theorem placeTask_fault_iff (hr : r.Reflects before) :
    ((r.see e).placeTask e).2 = some fault ↔ PlacementFails before e fault := by
  have hfails : PlacementFails before e fault ↔ e.shares 2 = .error fault ∨
      (∃ shares, e.shares 2 = .ok shares) ∧ (e.taskKey = .error fault ∨
        ∃ key, e.taskKey = .ok key ∧ (r.history key).running ≠ none ∧
          fault = e.malformed (.alreadyRunning key.task)) := by
    simp only [Event.shares_eq_error_iff, Event.shares_eq_ok_iff, Event.taskKey_eq_error_iff,
      Event.taskKey_eq_ok_iff, ne_eq, hr.running_eq_none_iff]
    constructor
    · intro h
      cases h with
      | shares fails => exact Or.inl fails
      | key listed fails => exact Or.inr ⟨listed, Or.inl fails⟩
      | running listed named running =>
        exact Or.inr ⟨listed, Or.inr ⟨_, named, by simp [running], rfl⟩⟩
    · rintro (fails | ⟨listed, fails | ⟨key, named, running, rfl⟩⟩)
      · exact .shares fails
      · exact .key listed fails
      · obtain ⟨a, ha⟩ := Option.ne_none_iff_exists'.mp running
        exact .running listed named ha
  rw [hfails]
  unfold placeTask
  cases e.shares 2 with
  | error err => simp
  | ok shares =>
    cases e.taskKey with
    | error err => simp
    | ok key =>
      have hhistory : (r.see e).history key = r.history key := rfl
      cases hrun : (r.history key).running <;> simp [hhistory, hrun, eq_comm]

/-- Ending a task fails if its name is not complete, or if it does not run, or if it was placed at a
later tick than that of the row. -/
theorem endTask_fault_iff (hr : r.Reflects before) :
    ((r.see e).endTask e).2 = some fault ↔ EndFails before e fault := by
  have hfails : EndFails before e fault ↔ e.taskKey = .error fault ∨
      ∃ key, e.taskKey = .ok key ∧
        ((r.history key).running = none ∧ fault = e.malformed (.notRunning key.task) ∨
          ∃ current, (r.history key).running = some current ∧ e.tick < current.start ∧
            fault = e.malformed (.endsBeforePlacement key.task e.tick current.start)) := by
    simp only [Event.taskKey_eq_error_iff, Event.taskKey_eq_ok_iff, hr.running_eq_none_iff]
    constructor
    · intro h
      cases h with
      | key fails => exact Or.inl fails
      | idle named idle => exact Or.inr ⟨_, named, Or.inl ⟨idle, rfl⟩⟩
      | early named running early =>
        obtain ⟨current, hrun, hstart⟩ := hr.running_iff.mpr ⟨_, running, rfl⟩
        rw [← hstart] at early ⊢
        exact Or.inr ⟨_, named, Or.inr ⟨current, hrun, early, rfl⟩⟩
    · rintro (fails | ⟨key, named, ⟨idle, rfl⟩ | ⟨current, hrun, early, rfl⟩⟩)
      · exact .key fails
      · exact .idle named idle
      · obtain ⟨a, ha, htick⟩ := hr.running_iff.mp ⟨current, hrun, rfl⟩
        rw [← htick] at early ⊢
        exact .early named ha early
  rw [hfails]
  unfold endTask
  cases e.taskKey with
  | error err => simp
  | ok key =>
    have hhistory : (r.see e).history key = r.history key := rfl
    cases hrun : (r.history key).running with
    | none => simp [hhistory, hrun, eq_comm]
    | some current =>
      by_cases hlt : e.tick < current.start <;> simp [hhistory, hrun, hlt, eq_comm]

/-- A row is refused exactly with the fault that it has after the rows before it. -/
theorem process_fault_iff (hr : r.Reflects before) :
    (r.process e).2 = some fault ↔ RowFails before e fault := by
  rw [process_eq, RowFails]
  cases e.kind? with
  | none => simp
  | some kind =>
    cases kind with
    | workerPool => exact declarePool_fault_iff
    | graphRelease => exact releaseGraph_fault_iff
    | graphFinished | missedDeadline | graphCancel => exact markGraph_fault_iff hr _
    | taskRelease => exact nameTask_fault_iff
    | taskPlacement => exact placeTask_fault_iff hr
    | taskFinished | taskPreempt => exact endTask_fault_iff hr
    | simulatorEnd | schedulerStart | schedulerFinished | logStats => simp

end Replay

/-! ## The rows that fit -/

section Fits

variable {before : List Event} {e : Event}

/-- The declaration of a pool has no fault if it names the pool and what follows are pairs of a
resource and a quantity. -/
theorem forall_not_poolFails_iff :
    (∀ fault, ¬ PoolFails e fault) ↔ e.params ≠ [] ∧ ListsResources (e.params.drop 1) := by
  simp only [← Event.pool_eq_error_iff]
  rw [forall_ne_error_iff]
  constructor
  · rintro ⟨p, hp⟩
    obtain ⟨hid, hlist⟩ := Event.pool_eq_ok_iff.mp hp
    exact ⟨fun hnil => by simp [hnil] at hid, p.resources, hlist⟩
  · rintro ⟨hne, shares, hlist⟩
    obtain ⟨id, rest, heq⟩ := List.exists_cons_of_ne_nil hne
    exact ⟨⟨id, shares⟩, Event.pool_eq_ok_iff.mpr ⟨by rw [heq]; rfl, hlist⟩⟩

/-- The release of a graph has no fault if it has three fields at least and numbers in the first two
of them and in the last. -/
theorem forall_not_releaseFails_iff :
    (∀ fault, ¬ ReleaseFails e fault) ↔ 3 ≤ e.params.length ∧
      IsNatural e.params[0]? ∧ IsNatural e.params[1]? ∧ IsNatural e.params.getLast? := by
  simp only [← Event.releasedGraph_eq_error_iff]
  rw [forall_ne_error_iff]
  constructor
  · rintro ⟨g, hg⟩
    obtain ⟨⟨a, ha, hra⟩, ⟨b, hb, hrb⟩, hid, ⟨d, hd, hrd⟩, -⟩ := Event.releasedGraph_eq_ok_iff.mp hg
    exact ⟨(List.getElem?_eq_some_iff.mp hid).1, ⟨a, _, ha, hra⟩, ⟨b, _, hb, hrb⟩, ⟨d, _, hd, hrd⟩⟩
  · rintro ⟨hlong, ⟨a, m, ha, hra⟩, ⟨b, n, hb, hrb⟩, ⟨d, k, hd, hrd⟩⟩
    exact ⟨⟨e.params[2], m, n, k, false, false, false⟩, Event.releasedGraph_eq_ok_iff.mpr
      ⟨⟨a, ha, hra⟩, ⟨b, hb, hrb⟩, List.getElem?_eq_getElem hlong, ⟨d, hd, hrd⟩, rfl, rfl, rfl⟩⟩

/-- What became of a graph can be said without a fault as soon as the graph was released. -/
theorem forall_not_markFails_iff : (∀ fault, ¬ MarkFails before e fault) ↔
    ∃ graph, e.params[0]? = some graph ∧ Released before graph := by
  constructor
  · intro h
    cases hp : e.params[0]? with
    | none => exact absurd (.id (by simpa using hp)) (h _)
    | some graph => exact ⟨graph, rfl, not_not.mp fun hnever => h _ (.unknown hp hnever)⟩
  · rintro ⟨graph, hp, hreleased⟩ fault hfails
    cases hfails with
    | id none => simp [none] at hp
    | unknown some never =>
      obtain rfl := Option.some.inj (hp.symm.trans some)
      exact never hreleased

/-- The name of a task is complete if there are two fields for it, whatever they hold. -/
theorem forall_not_keyFails_iff : (∀ fault, ¬ KeyFails e fault) ↔ 2 ≤ e.params.length := by
  constructor
  · intro h
    have hgraph : e.params.length ≠ 0 :=
      fun hzero => h _ (.graph (List.length_eq_zero_iff.mp hzero))
    have htask : e.params.length ≠ 1 := fun hone => h _ (.task hone)
    omega
  · intro hlong fault hfails
    cases hfails with
    | graph none => rw [none] at hlong; exact absurd hlong (by decide)
    | task single => omega

/-- A placement has no fault if its resources can be read and it names a task that does not run. -/
theorem forall_not_placementFails_iff : (∀ fault, ¬ PlacementFails before e fault) ↔
    ListsResources (e.params.drop 2) ∧ 2 ≤ e.params.length ∧
      ∀ key, e.key? = some key → openRow? before key = none := by
  constructor
  · intro h
    have hlisted : ListsResources (e.params.drop 2) := by
      have hshares : ∀ fault, e.shares 2 ≠ .error fault := fun fault hfault =>
        h fault (.shares (Event.shares_eq_error_iff.mp hfault))
      obtain ⟨shares, hshares⟩ := forall_ne_error_iff.mp hshares
      exact ⟨shares, Event.shares_eq_ok_iff.mp hshares⟩
    refine ⟨hlisted, forall_not_keyFails_iff.mp fun fault hkey => h fault (.key hlisted hkey), ?_⟩
    intro key hkey
    cases hopen : openRow? before key with
    | none => rfl
    | some a => exact absurd (.running hlisted hkey hopen) (h _)
  · rintro ⟨⟨shares, hlisted⟩, hlong, hidle⟩ fault hfails
    cases hfails with
    | shares fails =>
      rw [← Event.shares_eq_error_iff, Event.shares_eq_ok_iff.mpr hlisted] at fails
      cases fails
    | key _ fails => exact forall_not_keyFails_iff.mpr hlong _ fails
    | running _ named running => rw [hidle _ named] at running; cases running

/-- The end of a task has no fault if it names a task that runs, and not from a later tick on. -/
theorem forall_not_endFails_iff : (∀ fault, ¬ EndFails before e fault) ↔
    2 ≤ e.params.length ∧
      ∀ key, e.key? = some key → ∃ a, openRow? before key = some a ∧ a.tick ≤ e.tick := by
  constructor
  · intro h
    refine ⟨forall_not_keyFails_iff.mp fun fault hkey => h fault (.key hkey), fun key hkey => ?_⟩
    cases hopen : openRow? before key with
    | none => exact absurd (.idle hkey hopen) (h _)
    | some a => exact ⟨a, rfl, Nat.le_of_not_lt fun hlt => h _ (.early hkey hopen hlt)⟩
  · rintro ⟨hlong, hrunning⟩ fault hfails
    cases hfails with
    | key fails => exact forall_not_keyFails_iff.mpr hlong _ fails
    | idle named idle =>
      obtain ⟨a, ha, -⟩ := hrunning _ named
      rw [idle] at ha
      cases ha
    | early named running early =>
      obtain ⟨a, ha, hle⟩ := hrunning _ named
      obtain rfl := Option.some.inj (running.symm.trans ha)
      omega

/-- What makes a row fit is, for each kind of row, that none of the faults of this kind applies. The
two descriptions are made up independently of each other. -/
theorem fits_iff_of_kind : Fits before e ↔
    (e.is .workerPool = true → ∀ fault, ¬ PoolFails e fault) ∧
    (e.is .graphRelease = true → ∀ fault, ¬ ReleaseFails e fault) ∧
    (e.isMark = true → ∀ fault, ¬ MarkFails before e fault) ∧
    (e.is .taskRelease = true → ∀ fault, ¬ KeyFails e fault) ∧
    (e.is .taskPlacement = true → ∀ fault, ¬ PlacementFails before e fault) ∧
    (e.is .taskFinished = true ∨ e.is .taskPreempt = true →
      ∀ fault, ¬ EndFails before e fault) := by
  rw [forall_not_poolFails_iff, forall_not_releaseFails_iff, forall_not_markFails_iff,
    forall_not_keyFails_iff, forall_not_placementFails_iff, forall_not_endFails_iff]
  have htask : e.isTaskRow = true ↔ e.is .taskRelease = true ∨ e.is .taskPlacement = true ∨
      e.is .taskFinished = true ∨ e.is .taskPreempt = true := by
    simp only [Event.isTaskRow, Bool.or_eq_true, or_assoc]
  constructor
  · rintro ⟨⟨pool, release, task, placement⟩, mark, begins, ends⟩
    rw [htask] at task
    refine ⟨pool, release, mark, fun h => task (Or.inl h), fun h => ?_, fun h => ?_⟩
    · exact ⟨placement h, task (Or.inr (Or.inl h)), fun key named =>
        begins key (Event.places_iff.mpr ⟨h, named⟩)⟩
    · exact ⟨task (Or.inr (Or.inr h)), fun key named => ends key (Event.ends_iff.mpr ⟨h, named⟩)⟩
  · rintro ⟨pool, release, mark, named, placed, ended⟩
    refine ⟨⟨pool, release, ?_, fun h => (placed h).1⟩, mark, fun key h => ?_, fun key h => ?_⟩
    · rw [htask]
      rintro (h | h | h)
      · exact named h
      · exact (placed h).2.1
      · exact (ended h).1
    · obtain ⟨kind, hkey⟩ := Event.places_iff.mp h
      exact (placed kind).2.2 key hkey
    · obtain ⟨kind, hkey⟩ := Event.ends_iff.mp h
      exact (ended kind).2 key hkey

/-- A row fits if there is no fault that it has. -/
theorem fits_iff : Fits before e ↔ ∀ fault, ¬ RowFails before e fault := by
  rw [fits_iff_of_kind]
  simp only [RowFails, Event.is_eq_decide, Event.isMark]
  cases e.kind? with
  | none => simp
  | some kind => cases kind <;> simp

end Fits

end ClusterTrace
