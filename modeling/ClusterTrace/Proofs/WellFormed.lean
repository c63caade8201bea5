import ClusterTrace.Proofs.ReplayRows

/-!
# Traces that are well formed

What a row must hold, what must have come before it, and what the names in a trace must stand for.
The first two are about one row and those before it (`Fits`), so that a trace can be checked row by
row; the last one needs the whole trace.
-/

namespace ClusterTrace

/-- The field is there and holds a natural number of 64 bits. -/
def IsNatural (field : Option String) : Prop :=
  ∃ text n, field = some text ∧ readNatural? text = some n

/-- The fields are pairs of a name and a finite quantity that is not negative. -/
def ListsResources (fields : List String) : Prop := ∃ shares, ListsShares fields shares

/-- The row holds what a row of its kind must. -/
structure RowWellFormed (e : Event) : Prop where
  pool : e.is .workerPool = true → e.params ≠ [] ∧ ListsResources (e.params.drop 1)
  release : e.is .graphRelease = true → 3 ≤ e.params.length ∧
    IsNatural e.params[0]? ∧ IsNatural e.params[1]? ∧ IsNatural e.params.getLast?
  task : e.isTaskRow = true → 2 ≤ e.params.length
  placement : e.is .taskPlacement = true → ListsResources (e.params.drop 2)

/-- Rows that place a task and rows that end it take turns, beginning with one that places it, and
none ends it at a tick before it was placed. -/
inductive TakeTurns (key : TaskKey) : List Event → Prop
  | nil : TakeTurns key []
  | running {a : Event} (places : a.places key = true) : TakeTurns key [a]
  | ended {a b : Event} {rest : List Event} (places : a.places key = true)
      (ends : b.ends key = true) (ordered : a.tick ≤ b.tick) (later : TakeTurns key rest) :
      TakeTurns key (a :: b :: rest)

/-- The rows that place the task or end it. -/
def turns (key : TaskKey) (rows : List Event) : List Event :=
  rows.filter fun e => e.places key || e.ends key

/-- Every row fits its place. -/
structure RowsFit (rows : List Event) : Prop where
  each : ∀ e ∈ rows, RowWellFormed e
  /-- What became of a graph is told after its release. -/
  marks : ∀ before e after, rows = before ++ e :: after → e.isMark = true →
    ∃ graph, e.params[0]? = some graph ∧ Released before graph
  turns : ∀ key, TakeTurns key (turns key rows)

/-- Every row fits its place, and the graphs and the resources that tasks name are somewhere in the
trace. -/
structure WellFormed (checkResources : Bool) (rows : List Event) : Prop where
  fit : RowsFit rows
  graphs : ∀ key ∈ namedTasks rows, Released rows key.graph
  resources : checkResources = true → ∀ e ∈ rows, e.is .taskPlacement = true →
    ∀ name ∈ resourceNames (e.params.drop 2), Provided rows name

/-! ## One more row -/

/-- The row fits after the rows before it. -/
structure Fits (before : List Event) (e : Event) : Prop where
  row : RowWellFormed e
  mark : e.isMark = true → ∃ graph, e.params[0]? = some graph ∧ Released before graph
  begins : ∀ key, e.places key = true → openRow? before key = none
  ends : ∀ key, e.ends key = true → ∃ a, openRow? before key = some a ∧ a.tick ≤ e.tick

/-- What is asked of each row after those before it can be asked of the rows but the last and then
of the last one. -/
theorem split_concat {P : List Event → Event → Prop} {rows : List Event} {e : Event} :
    (∀ before x after, rows ++ [e] = before ++ x :: after → P before x) ↔
      (∀ before x after, rows = before ++ x :: after → P before x) ∧ P rows e := by
  constructor
  · intro h
    refine ⟨fun before x after heq => h before x (after ++ [e]) ?_, h rows e [] rfl⟩
    rw [heq, List.append_assoc, List.cons_append]
  · rintro ⟨hrows, he⟩ before x after heq
    rcases List.eq_nil_or_concat after with rfl | ⟨after', y, rfl⟩
    · obtain ⟨rfl, hx⟩ := List.append_inj' heq rfl
      obtain rfl : e = x := by simpa using hx
      exact he
    · have heq' : rows ++ [e] = (before ++ x :: after') ++ [y] := by simpa using heq
      obtain ⟨hsplit, -⟩ := List.append_inj' heq' rfl
      exact hrows before x after' hsplit

/-- A task that has ended once is where it was before. -/
theorem getLast?_filter_places {key : TaskKey} {b : Event} (hb : b.ends key = true) (a : Event)
    (rest : List Event) :
    (a :: b :: rest).getLast?.filter (fun e => e.places key) =
      rest.getLast?.filter fun e => e.places key := by
  cases rest with
  | nil => simp [Option.filter, Event.places_eq_false_of_ends hb key]
  | cons c rest => rw [List.getLast?_cons_cons, List.getLast?_cons_cons]

/-- The rows of a task take turns up to a new one if they do so up to the row before, and the new
one is the turn that is due. -/
theorem takeTurns_concat {key : TaskKey} {e : Event} : ∀ {l : List Event},
    TakeTurns key (l ++ [e]) ↔ TakeTurns key l ∧
      match l.getLast?.filter fun a => a.places key with
      | none => e.places key = true
      | some a => e.ends key = true ∧ a.tick ≤ e.tick
  | [] => by
    constructor
    · intro h
      cases h with
      | running places => exact ⟨.nil, places⟩
    · rintro ⟨-, places⟩
      exact .running places
  | [a] => by
    constructor
    · intro h
      cases h with
      | ended places ends ordered later =>
        simpa [Option.filter, places, ends, ordered] using TakeTurns.running places
    · rintro ⟨hturns, hlast⟩
      cases hturns with
      | running places =>
        have hlast' : e.ends key = true ∧ a.tick ≤ e.tick := by
          simpa [Option.filter, places] using hlast
        exact .ended places hlast'.1 hlast'.2 .nil
  | a :: b :: rest => by
    constructor
    · intro h
      cases h with
      | ended places ends ordered later =>
        obtain ⟨hrest, hlast⟩ := takeTurns_concat.mp later
        rw [getLast?_filter_places ends]
        exact ⟨.ended places ends ordered hrest, hlast⟩
    · rintro ⟨hturns, hlast⟩
      cases hturns with
      | ended places ends ordered later =>
        rw [getLast?_filter_places ends] at hlast
        exact .ended places ends ordered (takeTurns_concat.mpr ⟨later, hlast⟩)

/-- The same, said of all rows: a row that places the task needs it idle, and one that ends it needs
it running since an earlier tick or this one. -/
theorem takeTurns_turns_concat {key : TaskKey} {rows : List Event} {e : Event} :
    TakeTurns key (turns key (rows ++ [e])) ↔ TakeTurns key (turns key rows) ∧
      (e.places key = true → openRow? rows key = none) ∧
      (e.ends key = true → ∃ a, openRow? rows key = some a ∧ a.tick ≤ e.tick) := by
  have hopen : (turns key rows).getLast?.filter (fun a => a.places key) = openRow? rows key := rfl
  have hconcat : turns key (rows ++ [e]) =
      turns key rows ++ if e.places key || e.ends key then [e] else [] := by
    simp [turns, List.filter_append, List.filter_cons]
  rw [hconcat]
  cases hp : e.places key with
  | true =>
    have he : e.ends key = false := Event.ends_eq_false_of_is (Event.places_iff.mp hp).1 key
    rw [Bool.true_or, if_pos rfl, takeTurns_concat, hopen, hp, he]
    cases openRow? rows key <;> simp
  | false =>
    cases he : e.ends key with
    | true =>
      rw [Bool.or_true, if_pos rfl, takeTurns_concat, hopen, hp, he]
      cases openRow? rows key <;> simp
    | false => simp

theorem rowsFit_nil : RowsFit [] where
  each := fun _ he => (List.not_mem_nil he).elim
  marks := fun before _ _ heq => by simp at heq
  turns := fun _ => .nil

/-- Rows can be checked one after the other. -/
theorem rowsFit_concat {rows : List Event} {e : Event} :
    RowsFit (rows ++ [e]) ↔ RowsFit rows ∧ Fits rows e := by
  constructor
  · rintro ⟨each, marks, turns⟩
    rw [split_concat] at marks
    refine ⟨⟨fun x hx => each x (List.mem_append_left _ hx), marks.1, fun key => ?_⟩,
      ⟨each e (by simp), marks.2, fun key => ?_, fun key => ?_⟩⟩
    · exact (takeTurns_turns_concat.mp (turns key)).1
    · exact (takeTurns_turns_concat.mp (turns key)).2.1
    · exact (takeTurns_turns_concat.mp (turns key)).2.2
  · rintro ⟨⟨each, marks, turns⟩, ⟨row, mark, begins, ends⟩⟩
    refine ⟨fun x hx => ?_, split_concat.mpr ⟨marks, mark⟩, fun key => ?_⟩
    · rcases List.mem_append.mp hx with hx | hx
      · exact each x hx
      · rw [List.mem_singleton.mp hx]
        exact row
    · exact takeTurns_turns_concat.mpr ⟨turns key, begins key, ends key⟩

end ClusterTrace
