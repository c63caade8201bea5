import ClusterTrace.Trace.Replay
import Mathlib.Data.List.Induction

/-!
# What the rows of a trace say

The words in which traces are described here: the task that a row names, places or ends, the rows
that place a task, the tick of the next row that ends it, the tick at which a trace ends, the graphs
that are released and the resources that are provided. All of them look at rows alone; what a replay
makes of the rows is shown to agree with them.
-/

namespace ClusterTrace

/-! ## Results that may be faults -/

section Except

variable {ε α β : Type}

theorem bind_eq_ok_iff {x : Except ε α} {f : α → Except ε β} {b : β} :
    x.bind f = .ok b ↔ ∃ a, x = .ok a ∧ f a = .ok b := by
  cases x <;> simp [Except.bind]

theorem bind_eq_error_iff {x : Except ε α} {f : α → Except ε β} {err : ε} :
    x.bind f = .error err ↔ x = .error err ∨ ∃ a, x = .ok a ∧ f a = .error err := by
  cases x <;> simp [Except.bind]

theorem map_eq_ok_iff {x : Except ε α} {f : α → β} {b : β} :
    x.map f = .ok b ↔ ∃ a, x = .ok a ∧ f a = b := by
  cases x <;> simp [Except.map]

theorem map_eq_error_iff {x : Except ε α} {f : α → β} {err : ε} :
    x.map f = .error err ↔ x = .error err := by
  cases x <;> simp [Except.map]

theorem forall_ne_error_iff {x : Except ε α} : (∀ err, x ≠ .error err) ↔ ∃ a, x = .ok a := by
  cases x <;> simp

theorem toOption_eq_some_iff {x : Except ε α} {a : α} : x.toOption = some a ↔ x = .ok a := by
  cases x <;> simp [Except.toOption]

/-- What a test of a result finds. -/
theorem exists_of_any_toOption {x : Except ε α} {p : α → Bool} (h : x.toOption.any p = true) :
    ∃ a, x = .ok a ∧ p a = true := by
  cases x with
  | error err => cases h
  | ok a => exact ⟨a, rfl, h⟩

end Except

/-! ## Single rows -/

/-- What rows are about: a pool, the release of a task graph or what became of it, a task, the end
of the trace, or nothing that a replay keeps. -/
inductive Subject where
  | pool
  | release
  | mark
  | task
  | ending
  | nothing
deriving DecidableEq

def EventKind.subject : EventKind → Subject
  | .workerPool => .pool
  | .graphRelease => .release
  | .graphFinished | .missedDeadline | .graphCancel => .mark
  | .taskRelease | .taskPlacement | .taskFinished | .taskPreempt => .task
  | .simulatorEnd => .ending
  | .schedulerStart | .schedulerFinished | .logStats => .nothing

namespace Event

def subject (e : Event) : Subject :=
  match e.kind? with
  | some kind => kind.subject
  | none => .nothing

/-- The task that the first two parameters name. -/
def key? (e : Event) : Option TaskKey :=
  match e.params with
  | graph :: task :: _ => some ⟨graph, task⟩
  | _ => none

/-- The row is about a task. -/
def isTaskRow (e : Event) : Bool :=
  e.is .taskRelease || e.is .taskPlacement || e.is .taskFinished || e.is .taskPreempt

/-- The row is about what became of a task graph. -/
def isMark (e : Event) : Bool :=
  e.is .graphFinished || e.is .missedDeadline || e.is .graphCancel

/-- The row places the task. -/
def places (e : Event) (key : TaskKey) : Bool := e.is .taskPlacement && decide (e.key? = some key)

/-- The row ends the placement of the task. -/
def ends (e : Event) (key : TaskKey) : Bool :=
  (e.is .taskFinished || e.is .taskPreempt) && decide (e.key? = some key)

/-- The row releases the graph. -/
def releases (e : Event) (graph : String) : Bool :=
  e.is .graphRelease && decide (e.params[2]? = some graph)

/-- The row declares the pool. -/
def declares (e : Event) (pool : String) : Bool :=
  e.is .workerPool && decide (e.params[0]? = some pool)

theorem kind?_eq_some_iff {e : Event} {kind : EventKind} :
    e.kind? = some kind ↔ e.is kind = true := by
  unfold kind? Event.is
  refine ⟨fun h => ?_, fun h => ?_⟩
  · have := List.find?_some h
    simpa [eq_comm] using this
  · rw [of_decide_eq_true h]
    exact EventKind.ofName?_name kind

/-- A row is of one kind only. -/
theorem is_of_is {e : Event} {kind : EventKind} (h : e.is kind = true) (kind' : EventKind) :
    e.is kind' = decide (kind = kind') := by
  rw [Bool.eq_iff_iff, ← kind?_eq_some_iff, kind?_eq_some_iff.mpr h, decide_eq_true_eq,
    Option.some.injEq]

theorem subject_of_is {e : Event} {kind : EventKind} (h : e.is kind = true) :
    e.subject = kind.subject := by
  rw [subject, kind?_eq_some_iff.mpr h]

theorem is_eq_decide (e : Event) (kind : EventKind) : e.is kind = decide (e.kind? = some kind) := by
  rw [Bool.eq_iff_iff, decide_eq_true_eq, kind?_eq_some_iff]

/-- A row is of no kind that is about something else. -/
theorem is_eq_false {e : Event} {kind : EventKind} (h : e.subject ≠ kind.subject) :
    e.is kind = false := by
  cases hk : e.is kind with
  | false => rfl
  | true => exact absurd (subject_of_is hk) h

theorem isTaskRow_iff {e : Event} : e.isTaskRow = true ↔ e.subject = .task := by
  refine ⟨fun h => ?_, fun h => ?_⟩
  · simp only [isTaskRow, Bool.or_eq_true] at h
    rcases h with ((h | h) | h) | h <;> exact subject_of_is h
  · cases hk : e.kind? with
    | none => simp [subject, hk] at h
    | some kind =>
      have hkind := kind?_eq_some_iff.mp hk
      rw [subject_of_is hkind] at h
      cases kind <;> simp [EventKind.subject] at h <;> simp [isTaskRow, hkind]

theorem subject_of_isMark {e : Event} (h : e.isMark = true) : e.subject = .mark := by
  simp only [isMark, Bool.or_eq_true] at h
  rcases h with (h | h) | h <;> exact subject_of_is h

theorem places_iff {e : Event} {key : TaskKey} :
    e.places key = true ↔ e.is .taskPlacement = true ∧ e.key? = some key := by
  rw [places, Bool.and_eq_true, decide_eq_true_eq]

theorem ends_iff {e : Event} {key : TaskKey} :
    e.ends key = true ↔
      (e.is .taskFinished = true ∨ e.is .taskPreempt = true) ∧ e.key? = some key := by
  rw [ends, Bool.and_eq_true, Bool.or_eq_true, decide_eq_true_eq]

theorem subject_of_places {e : Event} {key : TaskKey} (h : e.places key = true) :
    e.subject = .task := subject_of_is (places_iff.mp h).1

theorem subject_of_ends {e : Event} {key : TaskKey} (h : e.ends key = true) :
    e.subject = .task := by
  rcases (ends_iff.mp h).1 with hk | hk <;> exact subject_of_is hk

/-- A row has one kind, so one that places a task ends none. -/
theorem ends_eq_false_of_is {e : Event} (h : e.is .taskPlacement = true) (key : TaskKey) :
    e.ends key = false := by
  simp [ends, is_of_is h]

theorem places_eq_false_of_ends {e : Event} {key : TaskKey} (h : e.ends key = true)
    (key' : TaskKey) : e.places key' = false := by
  rcases (ends_iff.mp h).1 with hk | hk <;> simp [places, is_of_is hk]

/-- The fault names the first of the two parameters that is missing. -/
theorem taskKey_eq (e : Event) :
    e.taskKey = match e.params with
      | graph :: task :: _ => .ok ⟨graph, task⟩
      | [_] => .error (e.missing 1 "task_id")
      | [] => .error (e.missing 0 "task_graph_id") := by
  unfold taskKey param
  cases hp : e.params with
  | nil => rfl
  | cons graph rest =>
    cases rest with
    | nil => rfl
    | cons task rest => rfl

theorem taskKey_eq_ok_iff {e : Event} {key : TaskKey} :
    e.taskKey = .ok key ↔ e.key? = some key := by
  rw [taskKey_eq, key?]
  cases e.params with
  | nil => simp
  | cons graph rest =>
    cases rest with
    | nil => simp
    | cons task rest => simp

theorem param_eq_ok_iff {e : Event} {index : Nat} {field value : String} :
    e.param index field = .ok value ↔ e.params[index]? = some value := by
  unfold param
  cases e.params[index]? <;> simp

theorem parse_eq_ok_iff {α : Type} {e : Event} {read : String → Option α} {value field : String}
    {x : α} : e.parse read value field = .ok x ↔ read value = some x := by
  unfold parse
  cases read value <;> simp

end Event

/-! ## Names and quantities -/

/-- The fields are pairs of a name and the text of a finite quantity that is not negative, and these
are the shares that they stand for. -/
inductive ListsShares : List String → List (Share Double) → Prop
  | nil : ListsShares [] []
  | cons {name text : String} {x : Double} {fields : List String} {shares : List (Share Double)}
      (read : Double.read? text = some x) (finite : x.isFinite = true)
      (notNegative : x.less Double.zero = false) (rest : ListsShares fields shares) :
      ListsShares (name :: text :: fields) (⟨name, x⟩ :: shares)

/-- The names in a list of names and quantities. -/
def resourceNames : List String → List String
  | name :: _ :: rest => name :: resourceNames rest
  | _ => []

theorem ListsShares.map_name {fields : List String} {shares : List (Share Double)}
    (h : ListsShares fields shares) : shares.map Share.name = resourceNames fields := by
  induction h with
  | nil => rfl
  | cons _ _ _ _ ih => rw [List.map_cons, ih, resourceNames]

theorem ListsShares.quantity {fields : List String} {shares : List (Share Double)}
    (h : ListsShares fields shares) :
    ∀ s ∈ shares, s.quantity.isFinite = true ∧ s.quantity.less Double.zero = false := by
  induction h with
  | nil => exact fun s hs => (List.not_mem_nil hs).elim
  | cons _ finite notNegative _ ih =>
    intro s hs
    rcases List.mem_cons.mp hs with rfl | hs
    · exact ⟨finite, notNegative⟩
    · exact ih s hs

theorem ListsShares.even {fields : List String} {shares : List (Share Double)}
    (h : ListsShares fields shares) : fields.length % 2 = 0 := by
  induction h with
  | nil => rfl
  | cons _ _ _ _ ih => simp only [List.length_cons]; omega

namespace Event

theorem quantity_eq_ok_iff {e : Event} {text : String} {x : Double} :
    e.quantity text = .ok x ↔
      Double.read? text = some x ∧ x.isFinite = true ∧ x.less Double.zero = false := by
  unfold quantity parse
  cases hr : Double.read? text with
  | none => simp [Except.bind]
  | some y =>
    by_cases hbad : (!y.isFinite || y.less Double.zero) = true
    · simp only [Except.bind, if_pos hbad]
      refine ⟨fun h => (nomatch h), fun ⟨hy, hfin, hneg⟩ => ?_⟩
      rw [Option.some.inj hy, hfin, hneg] at hbad
      cases hbad
    · simp only [Except.bind, if_neg hbad, Except.ok.injEq, Option.some.injEq]
      refine ⟨fun h => ⟨h, ?_⟩, fun h => h.1⟩
      rw [← h]
      simpa using hbad

/-- Fields of an even number are read as shares if each second one is a quantity. -/
theorem pairs_eq_ok_iff {e : Event} {fields : List String} {shares : List (Share Double)}
    (heven : fields.length % 2 = 0) :
    e.pairs fields = .ok shares ↔ ListsShares fields shares := by
  induction fields using resourceNames.induct generalizing shares with
  | case1 name text rest ih =>
    have hrest : rest.length % 2 = 0 := by simp only [List.length_cons] at heven; omega
    simp only [pairs, bind_eq_ok_iff, map_eq_ok_iff, quantity_eq_ok_iff, ih hrest]
    constructor
    · rintro ⟨x, ⟨hread, hfin, hneg⟩, rest', hlist, rfl⟩
      exact .cons hread hfin hneg hlist
    · intro h
      cases h with
      | cons hread hfin hneg hlist => exact ⟨_, ⟨hread, hfin, hneg⟩, _, hlist, rfl⟩
  | case2 fields hshort =>
    have hnil : fields = [] := by
      match fields, hshort with
      | [], _ => rfl
      | [_], _ => simp at heven
      | name :: text :: rest, hshort => exact absurd rfl (hshort name text rest)
    subst hnil
    refine ⟨fun h => ?_, fun h => ?_⟩
    · cases h; exact .nil
    · cases h; rfl

/-- The shares that a row lists from a parameter on. -/
theorem shares_eq_ok_iff {e : Event} {start : Nat} {shares : List (Share Double)} :
    e.shares start = .ok shares ↔ ListsShares (e.params.drop start) shares := by
  unfold Event.shares paramsFrom
  by_cases heven : (e.params.drop start).length % 2 = 0
  · simp only [if_pos heven]
    exact pairs_eq_ok_iff heven
  · simp only [if_neg heven]
    exact ⟨fun h => (nomatch h), fun h => absurd h.even heven⟩

/-- A pool is read from a row if its first parameter is there and the others list shares. -/
theorem pool_eq_ok_iff {e : Event} {p : WorkerPool Double} :
    e.pool = .ok p ↔ e.params[0]? = some p.id ∧ ListsShares (e.params.drop 1) p.resources := by
  unfold Event.pool
  simp only [bind_eq_ok_iff, map_eq_ok_iff, param_eq_ok_iff, shares_eq_ok_iff]
  constructor
  · rintro ⟨id, hid, shares, hlist, rfl⟩
    exact ⟨hid, hlist⟩
  · rintro ⟨hid, hlist⟩
    exact ⟨p.id, hid, p.resources, hlist, rfl⟩

theorem parseParam_eq_ok_iff {α : Type} {e : Event} {read : String → Option α} {index : Nat}
    {field : String} {x : α} :
    e.parseParam read index field = .ok x ↔
      ∃ value, e.params[index]? = some value ∧ read value = some x := by
  simp only [parseParam, bind_eq_ok_iff, param_eq_ok_iff, parse_eq_ok_iff]

theorem parseLast_eq_ok_iff {α : Type} {e : Event} {read : String → Option α}
    {field : String} {x : α} :
    e.parseLast read field = .ok x ↔
      ∃ value, e.params.getLast? = some value ∧ read value = some x := by
  unfold parseLast
  cases e.params.getLast? with
  | none => simp
  | some value => simp [parse_eq_ok_iff]

/-- What a row that releases a graph holds. -/
theorem releasedGraph_eq_ok_iff {e : Event} {g : TaskGraph} :
    e.releasedGraph = .ok g ↔
      (∃ value, e.params[0]? = some value ∧ readNatural? value = some g.releaseTick) ∧
      (∃ value, e.params[1]? = some value ∧ readNatural? value = some g.deadlineTick) ∧
      e.params[2]? = some g.id ∧
      (∃ value, e.params.getLast? = some value ∧ readNatural? value = some g.criticalPath) ∧
      g.completed = false ∧ g.missedDeadline = false ∧ g.cancelled = false := by
  change (Except.bind _ _ = _) ↔ _
  simp only [bind_eq_ok_iff, bind, pure, Except.pure, parseParam_eq_ok_iff, parseLast_eq_ok_iff,
    param_eq_ok_iff, Except.ok.injEq]
  constructor
  · rintro ⟨release, hrelease, deadline, hdeadline, id, hid, path, hpath, rfl⟩
    exact ⟨hrelease, hdeadline, hid, hpath, rfl, rfl, rfl⟩
  · rintro ⟨hrelease, hdeadline, hid, hpath, hcompleted, hmissed, hcancelled⟩
    refine ⟨_, hrelease, _, hdeadline, _, hid, _, hpath, ?_⟩
    cases g
    simp_all

/-- A row releases the graph of its name. -/
theorem id_of_releases {e : Event} {graph : String} {g : TaskGraph}
    (h : e.releases graph = true) (read : e.releasedGraph = .ok g) : g.id = graph := by
  obtain ⟨_, _, hid, _⟩ := releasedGraph_eq_ok_iff.mp read
  rw [releases, Bool.and_eq_true, decide_eq_true_eq, hid] at h
  exact Option.some.inj h.2

/-- A row declares the pool of its name. -/
theorem id_of_declares {e : Event} {pool : String} {p : WorkerPool Double}
    (h : e.declares pool = true) (read : e.pool = .ok p) : p.id = pool := by
  rw [declares, Bool.and_eq_true, decide_eq_true_eq, (pool_eq_ok_iff.mp read).1] at h
  exact Option.some.inj h.2

end Event

/-! ## Whole traces -/

/-- The tasks that rows name, in the order in which they are first named. -/
def namedTasks (rows : List Event) : List TaskKey :=
  ((rows.filter Event.isTaskRow).filterMap Event.key?).eraseDups

/-- The rows that place a task, each with the rows after it. -/
def placings (key : TaskKey) : List Event → List (Event × List Event)
  | [] => []
  | e :: rest => if e.places key then (e, rest) :: placings key rest else placings key rest

/-- The tick of the first row that ends a placement of the task. -/
def endingTick? (key : TaskKey) (rows : List Event) : Option Nat :=
  (rows.find? fun e => e.ends key).map Event.tick

/-- The tick at which a trace ends: that of its last end mark or else its largest tick. -/
def traceEnd (rows : List Event) : Nat :=
  match (rows.filter fun e => e.is .simulatorEnd).getLast? with
  | some e => e.tick
  | none => (rows.map Event.tick).foldl max 0

/-- The last row that places or ends the task, if it places it. -/
def openRow? (rows : List Event) (key : TaskKey) : Option Event :=
  (rows.filter fun e => e.places key || e.ends key).getLast?.filter fun e => e.places key

/-- Some row releases the graph. -/
def Released (rows : List Event) (graph : String) : Prop := ∃ e ∈ rows, e.releases graph = true

/-- The last row that declares the pool. -/
def declaration? (rows : List Event) (pool : String) : Option Event :=
  (rows.filter fun e => e.declares pool).getLast?

/-- The resource is listed by some pool, as it is declared last. -/
def Provided (rows : List Event) (resource : String) : Prop :=
  ∃ pool e, declaration? rows pool = some e ∧ resource ∈ resourceNames (e.params.drop 1)

end ClusterTrace
