import ClusterTrace.Proofs.ReleaseSlack
import ClusterTrace.Proofs.RowFaults

/-!
# Fields at the end of a row

The runtime of a scheduler call and the critical path of a released graph are read from the last
parameter of their row, the fields before them by their index. So a row that ends with its third
field has it read twice: the second count of a call is also its runtime, and the name of a graph is
also its critical path. The replay refuses a release that ends before that, but the slack takes the
deadline of one for its critical path.
-/

namespace ClusterTrace

namespace Event

variable {α : Type} {e : Event} {read : String → Option α} {index index' first second : Nat}
  {x x' : α} {t : Double} {g : TaskGraph} {s : Int}

/-- What a reader makes of the parameter at an index. -/
def valueAt? (e : Event) (read : String → Option α) (index : Nat) : Option α :=
  e.params[index]?.bind read

/-- The last parameter is at the index, and a reader makes this of it. -/
structure LastAt (e : Event) (read : String → Option α) (index : Nat) (x : α) : Prop where
  last : e.params.length = index + 1
  value : e.valueAt? read index = some x

/-- The counts of a scheduler call. -/
structure Counted (e : Event) (first second : Nat) : Prop where
  first : e.valueAt? readNatural? 1 = some first
  second : e.valueAt? readNatural? 2 = some second

/-- The scheduler call placed and unplaced no task. -/
def isIdle (e : Event) : Bool :=
  decide (e.valueAt? readNatural? 1 = some 0) && decide (e.valueAt? readNatural? 2 = some 0)

/-- The runtime of a call is the last parameter, at this index. It stands behind the counts, or else
it is the second one of them. -/
structure RuntimeFrom (e : Event) (index : Nat) (t : Double) : Prop where
  value : ∃ x, e.LastAt Double.read? index x ∧ t = x / microsPerSecond
  place : 2 < index ∨ index = 2 ∧ ∃ second, e.valueAt? readNatural? 2 = some second ∧
    t = Double.ofNat second / microsPerSecond

/-- The critical path of a graph is the last parameter, at this index. It stands behind the name of
the graph, or else it is this name. -/
structure PathFrom (e : Event) (index : Nat) (g : TaskGraph) : Prop where
  value : e.LastAt readNatural? index g.criticalPath
  name : e.params[2]? = some g.id
  place : 2 < index ∨ index = 2 ∧ readNatural? g.id = some g.criticalPath

/-- All parameters are natural numbers. -/
def HoldsNumbers (e : Event) : Prop := ∀ text ∈ e.params, ∃ n, readNatural? text = some n

/-- The fields of a release that are read by their index. -/
def releaseFields : List String := ["release_tick", "deadline_tick", "task_graph_id"]

/-! ## Single fields -/

theorem parseParam_eq_ok_iff_valueAt? {field : String} :
    e.parseParam read index field = .ok x ↔ e.valueAt? read index = some x :=
  parseParam_eq_ok_iff.trans Option.bind_eq_some_iff.symm

theorem exists_getLast?_iff_lastAt :
    (∃ text, e.params.getLast? = some text ∧ read text = some x) ↔
      ∃ index, e.LastAt read index x := by
  rw [List.getLast?_eq_getElem?]
  constructor
  · rintro ⟨text, htext, hread⟩
    have hlt := (List.getElem?_eq_some_iff.mp htext).1
    exact ⟨_, by omega, Option.bind_eq_some_iff.mpr ⟨text, htext, hread⟩⟩
  · rintro ⟨index, hlast, hvalue⟩
    rw [hlast, Nat.add_sub_cancel]
    exact Option.bind_eq_some_iff.mp hvalue

theorem parseLast_eq_ok_iff_lastAt {field : String} :
    e.parseLast read field = .ok x ↔ ∃ index, e.LastAt read index x :=
  parseLast_eq_ok_iff.trans exists_getLast?_iff_lastAt

theorem lt_length_of_valueAt? (h : e.valueAt? read index = some x) : index < e.params.length := by
  obtain ⟨text, htext, -⟩ := Option.bind_eq_some_iff.mp h
  exact (List.getElem?_eq_some_iff.mp htext).1

theorem LastAt.le (h : e.LastAt read index x) {β : Type} {read' : String → Option β} {y : β}
    (hvalue : e.valueAt? read' index' = some y) : index' ≤ index := by
  have hlt := lt_length_of_valueAt? hvalue
  rw [h.last] at hlt
  exact Nat.le_of_lt_succ hlt

theorem LastAt.index_eq (h : e.LastAt read index x) {β : Type} {read' : String → Option β} {y : β}
    (h' : e.LastAt read' index' y) : index' = index :=
  Nat.succ.inj (h'.last.symm.trans h.last)

theorem valueAt?_read? {n : Nat} (h : e.valueAt? readNatural? index = some n) :
    e.valueAt? Double.read? index = some (Double.ofNat n) := by
  obtain ⟨text, htext, hread⟩ := Option.bind_eq_some_iff.mp h
  exact Option.bind_eq_some_iff.mpr ⟨text, htext, read?_of_readNatural? hread⟩

theorem eq_of_valueAt? {n : Nat} {i : Int} (h : e.valueAt? readNatural? index = some n)
    (h' : e.valueAt? readInteger? index = some i) : i = n := by
  obtain ⟨text, htext, hread⟩ := Option.bind_eq_some_iff.mp h
  obtain ⟨text', htext', hread'⟩ := Option.bind_eq_some_iff.mp h'
  obtain rfl : text = text' := Option.some.inj (htext.symm.trans htext')
  rw [readInteger?_of_readNatural? hread] at hread'
  split at hread'
  · exact (Option.some.inj hread').symm
  · cases hread'

/-! ## Scheduler calls -/

theorem schedulerRuntime?_eq_ok_iff {o : Option Double} :
    e.schedulerRuntime? = .ok o ↔ ∃ first second, e.Counted first second ∧
      (first = 0 ∧ second = 0 ∧ o = none ∨ ¬ (first = 0 ∧ second = 0) ∧
        ∃ index x, e.LastAt Double.read? index x ∧ o = some (x / microsPerSecond)) := by
  change (Except.bind _ _ = _) ↔ _
  simp only [bind, bind_eq_ok_iff, parseParam_eq_ok_iff_valueAt?]
  constructor
  · rintro ⟨first, hfirst, second, hsecond, h⟩
    refine ⟨first, second, ⟨hfirst, hsecond⟩, ?_⟩
    split at h
    next hidle => exact .inl ⟨hidle.1, hidle.2, (Except.ok.inj h).symm⟩
    next hbusy =>
      obtain ⟨x, hread, hx⟩ := bind_eq_ok_iff.mp h
      obtain ⟨index, hlast⟩ := parseLast_eq_ok_iff_lastAt.mp hread
      exact .inr ⟨hbusy, index, x, hlast, (Except.ok.inj hx).symm⟩
  · rintro ⟨first, second, ⟨hfirst, hsecond⟩, h⟩
    refine ⟨first, hfirst, second, hsecond, ?_⟩
    rcases h with ⟨rfl, rfl, rfl⟩ | ⟨hbusy, index, x, hlast, rfl⟩
    · rfl
    · rw [if_neg hbusy]
      exact bind_eq_ok_iff.mpr ⟨x, parseLast_eq_ok_iff_lastAt.mpr ⟨index, hlast⟩, rfl⟩

theorem Counted.isIdle_iff (h : e.Counted first second) :
    e.isIdle = true ↔ first = 0 ∧ second = 0 := by
  simp [isIdle, h.first, h.second]

/-- A call is passed over if it is idle, and else its runtime is read from the last parameter. -/
theorem runtimeFrom_of_schedulerRuntime? {o : Option Double} (h : e.schedulerRuntime? = .ok o) :
    e.isIdle = true ∧ o = none ∨
      e.isIdle = false ∧ ∃ t, o = some t ∧ ∃ index, e.RuntimeFrom index t := by
  obtain ⟨first, second, hcounted, h⟩ := schedulerRuntime?_eq_ok_iff.mp h
  rcases h with ⟨hfirst, hsecond, rfl⟩ | ⟨hbusy, index, x, hlast, rfl⟩
  · exact .inl ⟨hcounted.isIdle_iff.mpr ⟨hfirst, hsecond⟩, rfl⟩
  · refine .inr ⟨Bool.eq_false_iff.mpr (mt hcounted.isIdle_iff.mp hbusy), _, rfl, index,
      ⟨x, hlast, rfl⟩, ?_⟩
    -- The last parameter is not before the second count; it may be the same one.
    rcases Nat.lt_or_eq_of_le (hlast.le hcounted.second) with hbehind | rfl
    · exact .inl hbehind
    · have hx := hlast.value
      rw [valueAt?_read? hcounted.second, Option.some.injEq] at hx
      exact .inr ⟨rfl, second, hcounted.second, by rw [hx]⟩

theorem Counted.schedulerRuntime?_eq (h : e.Counted first second) (hbusy : e.isIdle = false)
    {x : Double} (hlast : e.LastAt Double.read? index x) :
    e.schedulerRuntime? = .ok (some (x / microsPerSecond)) := by
  refine schedulerRuntime?_eq_ok_iff.mpr
    ⟨first, second, h, .inr ⟨fun hidle => ?_, index, x, hlast, rfl⟩⟩
  rw [h.isIdle_iff.mpr hidle] at hbusy
  cases hbusy

theorem Counted.lastAt (h : e.Counted first second) (hlength : e.params.length = 3) :
    e.LastAt Double.read? 2 (Double.ofNat second) :=
  ⟨hlength, valueAt?_read? h.second⟩

/-! ## Released graphs -/

theorem releasedGraph_eq_ok_iff_valueAt? :
    e.releasedGraph = .ok g ↔ e.valueAt? readNatural? 0 = some g.releaseTick ∧
      e.valueAt? readNatural? 1 = some g.deadlineTick ∧ e.params[2]? = some g.id ∧
      (∃ index, e.LastAt readNatural? index g.criticalPath) ∧
      g.completed = false ∧ g.missedDeadline = false ∧ g.cancelled = false := by
  rw [releasedGraph_eq_ok_iff, exists_getLast?_iff_lastAt, ← Option.bind_eq_some_iff,
    ← Option.bind_eq_some_iff]
  rfl

theorem pathFrom_of_releasedGraph (h : e.releasedGraph = .ok g) :
    ∃ index, e.PathFrom index g := by
  obtain ⟨-, -, hname, ⟨index, hlast⟩, -⟩ := releasedGraph_eq_ok_iff_valueAt?.mp h
  -- The name is read as it stands, so it counts as a parameter that is read.
  have hthird : e.valueAt? some 2 = some g.id := Option.bind_eq_some_iff.mpr ⟨_, hname, rfl⟩
  refine ⟨index, hlast, hname, ?_⟩
  rcases Nat.lt_or_eq_of_le (hlast.le hthird) with hbehind | rfl
  · exact .inl hbehind
  · have hvalue := hlast.value
    rw [valueAt?, hname, Option.bind_some] at hvalue
    exact .inr ⟨rfl, hvalue⟩

theorem slack_eq_ok_iff : e.slack = .ok s ↔ ∃ release deadline path : Int,
    e.valueAt? readInteger? 0 = some release ∧ e.valueAt? readInteger? 1 = some deadline ∧
      (∃ index, e.LastAt readInteger? index path) ∧
      s = wrapped (deadline - wrapped (release + path)) := by
  change (Except.bind _ _ = _) ↔ _
  simp only [bind, pure, Except.pure, bind_eq_ok_iff, parseParam_eq_ok_iff_valueAt?,
    parseLast_eq_ok_iff_lastAt, Except.ok.injEq]
  constructor
  · rintro ⟨release, hrelease, deadline, hdeadline, path, hpath, rfl⟩
    exact ⟨release, deadline, path, hrelease, hdeadline, hpath, rfl⟩
  · rintro ⟨release, deadline, path, hrelease, hdeadline, hpath, rfl⟩
    exact ⟨release, hrelease, deadline, hdeadline, path, hpath, rfl⟩

theorem slack_eq_of_releasedGraph (hread : e.releasedGraph = .ok g) (hslack : e.slack = .ok s) :
    s = wrapped (g.deadlineTick - wrapped (g.releaseTick + g.criticalPath)) := by
  obtain ⟨hrelease, hdeadline, -, ⟨index, hlast⟩, -⟩ := releasedGraph_eq_ok_iff_valueAt?.mp hread
  obtain ⟨release, deadline, path, hrelease', hdeadline', ⟨index', hlast'⟩, rfl⟩ :=
    slack_eq_ok_iff.mp hslack
  obtain rfl := hlast.index_eq hlast'
  rw [eq_of_valueAt? hrelease hrelease', eq_of_valueAt? hdeadline hdeadline',
    eq_of_valueAt? hlast.value hlast'.value]

theorem not_releaseFails_missing {field : String} (hlong : 3 ≤ e.params.length) :
    ¬ ReleaseFails e (e.missing index field) := by
  have hfield : ∀ i < 3, e.params[i]? ≠ none := by
    intro i hi
    rw [ne_eq, List.getElem?_eq_none_iff]
    omega
  have hnumber : ∀ i < 3, ∀ name, ¬ NumberFails e i name (e.missing index field) := by
    intro i hi name hfails
    generalize hfault : e.missing index field = fault at hfails
    cases hfails with
    | missing hnone => exact hfield i hi hnone
    | unreadable => cases hfault
  intro h
  generalize hfault : e.missing index field = fault at *
  cases h with
  | release fails => exact hnumber 0 (by decide) _ fails
  | deadline _ fails => exact hnumber 1 (by decide) _ fails
  | id _ _ hnone => exact hfield 2 (by decide) hnone
  | path => cases hfault

/-- A release that ends before the name of its graph lacks the field behind its last one. -/
theorem HoldsNumbers.releaseFails (h : e.HoldsNumbers) (hshort : e.params.length < 3) :
    ∃ field, releaseFields[e.params.length]? = some field ∧
      ReleaseFails e (e.missing e.params.length field) := by
  have hnatural : ∀ index < e.params.length, IsNatural e.params[index]? := by
    intro index hindex
    obtain ⟨n, hn⟩ := h _ (List.getElem_mem hindex)
    exact ⟨_, n, List.getElem?_eq_getElem hindex, hn⟩
  have hend : e.params[e.params.length]? = none := List.getElem?_eq_none (Nat.le_refl _)
  generalize e.params.length = length at *
  match length with
  | 0 => exact ⟨_, rfl, .release (.missing hend)⟩
  | 1 => exact ⟨_, rfl, .deadline (hnatural 0 (by decide)) (.missing hend)⟩
  | 2 => exact ⟨_, rfl, .id (hnatural 0 (by decide)) (hnatural 1 (by decide)) hend⟩
  | length + 3 => omega

end Event

namespace Replay

variable {r : Replay} {e : Event}

theorem process_graphRelease_fault_iff {fault : TraceFault} (kind : e.is .graphRelease = true) :
    (r.process e).2 = some fault ↔ ReleaseFails e fault := by
  rw [process_eq, Event.kind?_eq_some_iff.mpr kind]
  exact releaseGraph_fault_iff

/-- A release is accepted if its two ticks and its last parameter are numbers, and the latter is not
one of the former. -/
theorem process_graphRelease_ok_iff (kind : e.is .graphRelease = true) :
    (∃ r', r.process e = (r', none)) ↔ 3 ≤ e.params.length ∧
      IsNatural e.params[0]? ∧ IsNatural e.params[1]? ∧ IsNatural e.params.getLast? := by
  have hnone : (∃ r', r.process e = (r', none)) ↔ (r.process e).2 = none := by
    constructor
    · rintro ⟨r', h⟩
      rw [h]
    · intro h
      exact ⟨_, Prod.ext rfl h⟩
  rw [hnone, Option.eq_none_iff_forall_ne_some, ← forall_not_releaseFails_iff]
  exact forall_congr' fun fault => not_congr (process_graphRelease_fault_iff kind)

end Replay

/-! ## Whole traces -/

namespace Metrics

theorem readEach_eq_ok_iff {α : Type} {read : Event → Except TraceFault α} {rows : List Event}
    {xs : List α} :
    readEach read rows = .ok xs ↔ List.Forall₂ (fun e x => read e = .ok x) rows xs := by
  induction rows generalizing xs with
  | nil => simp [readEach, eq_comm]
  | cons e rows ih =>
    rw [readEach, bind_eq_ok_iff, List.forall₂_cons_left_iff]
    simp only [map_eq_ok_iff, ih]
    constructor
    · rintro ⟨x, hx, rest, hrest, rfl⟩
      exact ⟨x, rest, hx, hrest, rfl⟩
    · rintro ⟨x, rest, hx, hrest, rfl⟩
      exact ⟨x, hx, rest, hrest, rfl⟩

def busyCalls (events : List Event) : List Event :=
  (eventsOf .schedulerFinished events).filter fun e => !e.isIdle

/-- There is one runtime for each busy call, in their order. -/
theorem runtimesFrom_of_schedulerRuntimes {events : List Event} {runtimes : List Double}
    (h : schedulerRuntimes events = .ok runtimes) :
    List.Forall₂ (fun row t => ∃ index, row.RuntimeFrom index t) (busyCalls events) runtimes := by
  obtain ⟨read, hread, rfl⟩ := map_eq_ok_iff.mp h
  have hrows := readEach_eq_ok_iff.mp hread
  rw [busyCalls]
  generalize eventsOf .schedulerFinished events = rows at hrows
  clear h hread
  induction hrows with
  | nil => exact .nil
  | @cons e o rows read hrow _ ih =>
    rcases Event.runtimeFrom_of_schedulerRuntime? hrow with ⟨hidle, rfl⟩ | ⟨hbusy, t, rfl, ht⟩
    · rw [List.filter_cons_of_neg (by simp [hidle])]
      exact ih
    · rw [List.filter_cons_of_pos (by simp [hbusy])]
      exact .cons ht ih

end Metrics

/-- Every runtime is the last parameter of a busy call, and such a call is refused for nothing else.
So one that ends with its counts is not refused at all. -/
structure RuntimesTrail (events : List Event) : Prop where
  runtimes : ∀ ts, Metrics.schedulerRuntimes events = .ok ts →
    List.Forall₂ (fun row t => ∃ index, row.RuntimeFrom index t) (Metrics.busyCalls events) ts
  busy : ∀ row ∈ Metrics.busyCalls events, ∀ first second, row.Counted first second →
    (∀ index x, row.LastAt Double.read? index x →
        row.schedulerRuntime? = .ok (some (x / microsPerSecond))) ∧
      (row.params.length = 3 →
        row.schedulerRuntime? = .ok (some (Double.ofNat second / microsPerSecond)))

/-- The critical path of a graph is the last parameter of its row. A row that has a name for the
graph lacks nothing, and three numbers are enough for it to be accepted. One that ends before that
is refused by the replay, but the slack needs no more than two numbers. -/
structure PathTrails (r : Replay) (e : Event) : Prop where
  path : ∀ r', r.process e = (r', none) → ∃ g index, r'.graphs.get? g.id = some g ∧
    e.PathFrom index g ∧ ∀ s, e.slack = .ok s →
      s = Event.wrapped (g.deadlineTick - Event.wrapped (g.releaseTick + g.criticalPath))
  accepted : (∃ r', r.process e = (r', none)) ↔ 3 ≤ e.params.length ∧
    IsNatural e.params[0]? ∧ IsNatural e.params[1]? ∧ IsNatural e.params.getLast?
  named : 3 ≤ e.params.length → ∀ index field, (r.process e).2 ≠ some (e.missing index field)
  short : e.HoldsNumbers → e.params.length < 3 → ∃ field,
    Event.releaseFields[e.params.length]? = some field ∧
      (r.process e).2 = some (e.missing e.params.length field)
  slack : ∀ release deadline, e.params.length = 2 → e.valueAt? readInteger? 0 = some release →
    e.valueAt? readInteger? 1 = some deadline →
    e.slack = .ok (Event.wrapped (deadline - Event.wrapped (release + deadline)))

/-- A field at the end of a row is read behind the fields that are read by their index, except in a
row that ends with the third one of these. -/
theorem trailingFields_read (events : List Event) (r : Replay) (e : Event) :
    RuntimesTrail events ∧ (e.is .graphRelease = true → PathTrails r e) := by
  refine ⟨⟨fun ts => Metrics.runtimesFrom_of_schedulerRuntimes, ?_⟩,
    fun kind => ⟨?_, Replay.process_graphRelease_ok_iff kind, ?_, ?_, ?_⟩⟩
  · intro row hrow first second hcounted
    have hbusy : row.isIdle = false := by simpa using (List.mem_filter.mp hrow).2
    exact ⟨fun index x => hcounted.schedulerRuntime?_eq hbusy,
      fun hlength => hcounted.schedulerRuntime?_eq hbusy (hcounted.lastAt hlength)⟩
  · intro r' hprocess
    obtain ⟨g, hread, hstored⟩ := (Replay.step_of_process hprocess).released kind
    obtain ⟨index, hpath⟩ := Event.pathFrom_of_releasedGraph hread
    exact ⟨g, index, hstored, hpath, fun s => Event.slack_eq_of_releasedGraph hread⟩
  · intro hlong index field hfault
    exact Event.not_releaseFails_missing hlong
      ((Replay.process_graphRelease_fault_iff kind).mp hfault)
  · intro hnumbers hshort
    obtain ⟨field, hfield, hfails⟩ := hnumbers.releaseFails hshort
    exact ⟨field, hfield, (Replay.process_graphRelease_fault_iff kind).mpr hfails⟩
  · intro release deadline hlength hrelease hdeadline
    exact Event.slack_eq_ok_iff.mpr
      ⟨release, deadline, deadline, hrelease, hdeadline, ⟨1, hlength, hdeadline⟩, rfl⟩

/-- A call with its runtime behind two more fields, and one that placed no task and names none. -/
def mixedCalls : List Event :=
  [⟨1, 5, "SCHEDULER_FINISHED", ["0", "2", "0", "1", "x", "1500"]⟩,
   ⟨2, 6, "SCHEDULER_FINISHED", ["0", "0", "0"]⟩]

/-- A release of a graph with a number for its name. -/
def numberedRelease : Event := ⟨3, 8, "TASK_GRAPH_RELEASE", ["0", "100", "7", "1", "40"]⟩

theorem numberedRelease_read :
    (∃ t index, Metrics.schedulerRuntimes mixedCalls = .ok [t] ∧ 2 < index ∧
      mixedCalls[0].RuntimeFrom index t) ∧
    ∃ r' g index, Replay.start.process numberedRelease = (r', none) ∧ 2 < index ∧
      r'.graphs.get? g.id = some g ∧ numberedRelease.PathFrom index g := by
  obtain ⟨hcalls, hrelease⟩ := trailingFields_read mixedCalls .start numberedRelease
  constructor
  · have hruntimes : Metrics.schedulerRuntimes mixedCalls =
        .ok [Double.ofNat 1500 / microsPerSecond] := by decide +kernel
    have hbusy : Metrics.busyCalls mixedCalls = [mixedCalls[0]] := by decide +kernel
    have hread := hcalls.runtimes _ hruntimes
    rw [hbusy] at hread
    obtain ⟨⟨index, hindex⟩, -⟩ := List.forall₂_cons.mp hread
    obtain ⟨x, hlast, -⟩ := hindex.value
    have hfive : 6 = index + 1 := hlast.last
    exact ⟨_, index, hruntimes, by omega, hindex⟩
  · have hstep : Replay.start.process numberedRelease =
        ((Replay.start.process numberedRelease).1, none) := Prod.ext rfl (by decide +kernel)
    obtain ⟨g, index, hstored, hpath, -⟩ := (hrelease (by decide +kernel)).path _ hstep
    have hfour : 5 = index + 1 := hpath.value.last
    exact ⟨_, g, index, hstep, by omega, hstored, hpath⟩

/-- A call that ends with its counts. -/
def countedCall : Event := ⟨1, 5, "SCHEDULER_FINISHED", ["0", "2", "7"]⟩

/-- A release that ends with the name of its graph. -/
def namedRelease : Event := ⟨1, 0, "TASK_GRAPH_RELEASE", ["0", "100", "7"]⟩

/-- There is nothing behind the third field, and yet a runtime and a critical path. -/
theorem namedRelease_accepted :
    countedCall.is .schedulerFinished = true ∧ countedCall.Counted 2 7 ∧
      (∀ index, 2 < index → countedCall.params[index]? = none) ∧
      Metrics.schedulerRuntimes [countedCall] = .ok [Double.ofNat 7 / microsPerSecond] ∧
    namedRelease.is .graphRelease = true ∧
      (∀ index, 2 < index → namedRelease.params[index]? = none) ∧
      ∃ r', Replay.start.process namedRelease = (r', none) ∧
        r'.graphs.get? "7" = some ⟨"7", 0, 100, 7, false, false, false⟩ ∧
        Metrics.slacks [namedRelease] = .ok [93] := by
  have hcall : ∀ index, 2 < index → countedCall.params[index]? = none :=
    fun index hindex => List.getElem?_eq_none hindex
  have hrelease : ∀ index, 2 < index → namedRelease.params[index]? = none :=
    fun index hindex => List.getElem?_eq_none hindex
  have hstep : Replay.start.process namedRelease =
      ((Replay.start.process namedRelease).1, none) := Prod.ext rfl (by decide +kernel)
  exact ⟨by decide, ⟨by decide +kernel, by decide +kernel⟩, hcall, by decide +kernel, by decide,
    hrelease, _, hstep, by decide +kernel, by decide +kernel⟩

end ClusterTrace
