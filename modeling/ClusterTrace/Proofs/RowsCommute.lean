import ClusterTrace.Proofs.ReplayStep

/-!
# Rows about different things commute

A row looks at the one pool, graph or task that it is about and writes there and nowhere else; of
its tick only the largest so far is kept. So two rows about different things can change places: each
of them is answered as before, and they leave the same state, whether they fit or not. Only if both
are the first to name their pool, graph or task, then the order in which they come is the order in
which these are listed.
-/

namespace ClusterTrace

/-- What a row can be about, by name. -/
inductive Topic where
  | pool (id : String)
  | graph (id : String)
  | task (key : TaskKey)
  /-- The end of the simulation. -/
  | ending
deriving DecidableEq

namespace Event

/-- What the row is about. A row of another kind and one that lacks the name is about nothing. -/
def topic? (e : Event) : Option Topic :=
  match e.subject with
  | .pool => e.params[0]?.map .pool
  | .release => e.params[2]?.map .graph
  | .mark => e.params[0]?.map .graph
  | .task => e.key?.map .task
  | .ending => some .ending
  | .nothing => none

/-- The rows are not about the same thing. -/
def Apart (a b : Event) : Prop := a.topic? = none ∨ a.topic? ≠ b.topic?

instance (a b : Event) : Decidable (a.Apart b) := inferInstanceAs (Decidable (_ ∨ _))

theorem Apart.symm {a b : Event} (h : a.Apart b) : b.Apart a := by
  rcases h with h | h
  · by_cases hb : b.topic? = none
    · exact .inl hb
    · exact .inr fun heq => hb (heq.trans h)
  · exact .inr h.symm

end Event

namespace Replay

/-- Both rows put a new key into the same table. -/
def BothAdd (r : Replay) (a b : Event) : Prop :=
  ((r.process a).1.pools.keys ≠ r.pools.keys ∧ (r.process b).1.pools.keys ≠ r.pools.keys) ∨
  ((r.process a).1.graphs.keys ≠ r.graphs.keys ∧ (r.process b).1.graphs.keys ≠ r.graphs.keys) ∨
  ((r.process a).1.tasks.keys ≠ r.tasks.keys ∧ (r.process b).1.tasks.keys ≠ r.tasks.keys)

/-! ## Writes -/

/-- What a row writes besides its tick. -/
inductive Write where
  | nothing
  | pool (p : WorkerPool Double)
  | graph (id : String) (g : TaskGraph)
  | task (key : TaskKey) (h : TaskHistory)
  | ending (tick : Nat)

namespace Write

def topic? : Write → Option Topic
  | .nothing => none
  | .pool p => some (.pool p.id)
  | .graph id _ => some (.graph id)
  | .task key _ => some (.task key)
  | .ending _ => some .ending

/-- The row writes nowhere but at what it is about. -/
def IsAbout (w : Write) (e : Event) : Prop := w.topic? = none ∨ w.topic? = e.topic?

end Write

def write (r : Replay) : Write → Replay
  | .nothing => r
  | .pool p => { r with pools := r.pools.insert p.id p }
  | .graph id g => { r with graphs := r.graphs.insert id g }
  | .task key h => r.setHistory key h
  | .ending tick => { r with endMark := some tick }

/-- Both writes put a new key into the same table. -/
def BothNew (r : Replay) : Write → Write → Prop
  | .pool p, .pool p' => p.id ∉ r.pools.keys ∧ p'.id ∉ r.pools.keys
  | .graph id _, .graph id' _ => id ∉ r.graphs.keys ∧ id' ∉ r.graphs.keys
  | .task key _, .task key' _ => key ∉ r.tasks.keys ∧ key' ∉ r.tasks.keys
  | _, _ => False

/-- What rows look at is the same in both states. No row looks at pools or at the end mark. -/
def AgreesAt (r r' : Replay) : Option Topic → Prop
  | some (.graph id) => r.graphs.get? id = r'.graphs.get? id
  | some (.task key) => r.history key = r'.history key
  | some (.pool _) | some .ending | none => True

variable {r : Replay} {a b e : Event} {w w' : Write}

theorem see_see : (r.see a).see b = (r.see b).see a := by
  simp only [see, Nat.max_assoc, Nat.max_comm a.tick]

theorem see_write : (r.write w).see e = (r.see e).write w := by
  cases w <;> rfl

theorem bothNew_see : (r.see e).BothNew w w' ↔ r.BothNew w w' := by
  cases w <;> cases w' <;> rfl

theorem agreesAt_refl (r : Replay) (t : Option Topic) : r.AgreesAt r t := by
  rcases t with _ | (_ | _ | _ | _) <;> first | exact trivial | rfl

theorem agreesAt_see (t : Option Topic) : r.AgreesAt (r.see e) t := by
  rcases t with _ | (_ | _ | _ | _) <;> first | exact trivial | rfl

/-- Agreement on a topic can be carried over several changes elsewhere. -/
theorem AgreesAt.trans {r' r'' : Replay} {t : Option Topic} (h : r.AgreesAt r' t)
    (h' : r'.AgreesAt r'' t) : r.AgreesAt r'' t := by
  rcases t with _ | (_ | _ | _ | _) <;> first | exact trivial | exact Eq.trans h h'

/-- A write is not seen elsewhere. -/
theorem agreesAt_write {t : Option Topic} (h : w.topic? = none ∨ w.topic? ≠ t) :
    r.AgreesAt (r.write w) t := by
  rcases t with _ | (_ | id | key | _)
  · trivial
  · trivial
  · cases w with
    | graph id' g =>
      have hne : ¬ id' = id := fun heq => h.elim nofun fun hne => hne (heq ▸ rfl)
      exact (Keyed.get?_insert _ _ _ _).trans (if_neg hne) |>.symm
    | nothing | pool | task | ending => rfl
  · cases w with
    | task key' g =>
      have hne : ¬ key' = key := fun heq => h.elim nofun fun hne => hne (heq ▸ rfl)
      exact (history_setHistory r key' key g).trans (if_neg hne) |>.symm
    | nothing | pool | graph | ending => rfl
  · trivial

/-- Writes at different places can change places, unless both are to the end of one table. One case
for each place of either write. -/
theorem write_comm_iff (h : w.topic? = none ∨ w.topic? ≠ w'.topic?) :
    (r.write w).write w' = (r.write w').write w ↔ ¬ r.BothNew w w' := by
  have hplace : ∀ t, w.topic? = some t → w'.topic? ≠ some t := fun t ht ht' =>
    h.elim (fun hnone => nomatch ht.symm.trans hnone) fun hne => hne (ht.trans ht'.symm)
  cases w with
  | nothing => cases w' <;> simp [write, BothNew]
  | pool p =>
    cases w' with
    | pool p' =>
      have hne : p.id ≠ p'.id := fun heq => hplace _ rfl (congrArg (some ∘ Topic.pool) heq.symm)
      rw [BothNew, ← Keyed.insert_comm_iff hne p p']
      simp [write]
    | nothing | graph | task | ending => exact iff_of_true rfl id
  | graph name g =>
    cases w' with
    | graph name' g' =>
      have hne : name ≠ name' := fun heq => hplace _ rfl (congrArg (some ∘ Topic.graph) heq.symm)
      rw [BothNew, ← Keyed.insert_comm_iff hne g g']
      simp [write]
    | nothing | pool | task | ending => exact iff_of_true rfl id
  | task key told =>
    cases w' with
    | task key' told' =>
      have hne : key ≠ key' := fun heq => hplace _ rfl (congrArg (some ∘ Topic.task) heq.symm)
      rw [BothNew, ← Keyed.insert_comm_iff hne told told']
      simp [write, setHistory]
    | nothing | pool | graph | ending => exact iff_of_true rfl id
  | ending tick =>
    cases w' with
    | ending tick' => exact absurd rfl (hplace _ rfl)
    | nothing | pool | graph | task => exact iff_of_true rfl id

/-! ## What a row does -/

theorem topic?_of_pool {p : WorkerPool Double} (kind : e.is .workerPool = true)
    (read : e.pool = .ok p) : e.topic? = some (.pool p.id) := by
  rw [Event.topic?, Event.subject_of_is kind]
  exact congrArg (Option.map Topic.pool) (Event.pool_eq_ok_iff.mp read).1

theorem topic?_of_releasedGraph {g : TaskGraph} (kind : e.is .graphRelease = true)
    (read : e.releasedGraph = .ok g) : e.topic? = some (.graph g.id) := by
  obtain ⟨-, -, hid, -⟩ := Event.releasedGraph_eq_ok_iff.mp read
  rw [Event.topic?, Event.subject_of_is kind]
  exact congrArg (Option.map Topic.graph) hid

theorem topic?_of_graphId {id : String} (kind : e.isMark = true) (read : e.graphId = .ok id) :
    e.topic? = some (.graph id) := by
  rw [Event.topic?, Event.subject_of_isMark kind]
  exact congrArg (Option.map Topic.graph) (Event.param_eq_ok_iff.mp read)

theorem topic?_of_taskKey {key : TaskKey} (subject : e.subject = .task)
    (read : e.taskKey = .ok key) : e.topic? = some (.task key) := by
  rw [Event.topic?, subject]
  exact congrArg (Option.map Topic.task) (Event.taskKey_eq_ok_iff.mp read)

theorem AgreesAt.graph {r' : Replay} {id : String} (h : r.AgreesAt r' e.topic?)
    (topic : e.topic? = some (.graph id)) : (r'.see e).graphs.get? id = r.graphs.get? id := by
  rw [topic] at h
  exact h.symm

theorem AgreesAt.history {r' : Replay} {key : TaskKey} (h : r.AgreesAt r' e.topic?)
    (topic : e.topic? = some (.task key)) : (r'.see e).history key = r.history key := by
  rw [topic] at h
  exact h.symm

/-- The row makes the write and meets the fault in the state `r`, and in every other one that is the
same at what the row is about. -/
structure Effect (r : Replay) (e : Event) (w : Write) (fault : Option TraceFault) : Prop where
  about : w.IsAbout e
  process : ∀ r', r.AgreesAt r' e.topic? → r'.process e = ((r'.see e).write w, fault)

section Effects

variable (r)

/-- The declaration of a pool depends on the row alone, and it writes the pool. -/
theorem exists_effect_declarePool (kind : e.is .workerPool = true)
    (hprocess : ∀ r' : Replay, r'.process e = (r'.see e).declarePool e) :
    ∃ w fault, Effect r e w fault := by
  cases hp : e.pool with
  | error fault =>
    refine ⟨.nothing, some fault, .inl rfl, fun r' _ => ?_⟩
    rw [hprocess, declarePool, hp]
    rfl
  | ok p =>
    refine ⟨.pool p, none, .inr (topic?_of_pool kind hp).symm, fun r' _ => ?_⟩
    rw [hprocess, declarePool, hp]
    rfl

/-- The release of a graph depends on the row alone, and it writes the graph. -/
theorem exists_effect_releaseGraph (kind : e.is .graphRelease = true)
    (hprocess : ∀ r' : Replay, r'.process e = (r'.see e).releaseGraph e) :
    ∃ w fault, Effect r e w fault := by
  cases hg : e.releasedGraph with
  | error fault =>
    refine ⟨.nothing, some fault, .inl rfl, fun r' _ => ?_⟩
    rw [hprocess, releaseGraph, hg]
    rfl
  | ok g =>
    refine ⟨.graph g.id g, none, .inr (topic?_of_releasedGraph kind hg).symm, fun r' _ => ?_⟩
    rw [hprocess, releaseGraph, hg]
    rfl

/-- What became of a graph depends on the entry of the graph alone, which it writes if there is
one. -/
theorem exists_effect_markGraph {mark : TaskGraph → TaskGraph} (kind : e.isMark = true)
    (hprocess : ∀ r' : Replay, r'.process e = (r'.see e).markGraph e mark) :
    ∃ w fault, Effect r e w fault := by
  cases hid : e.graphId with
  | error fault =>
    refine ⟨.nothing, some fault, .inl rfl, fun r' _ => ?_⟩
    rw [hprocess, markGraph, hid]
    rfl
  | ok id =>
    have htopic := topic?_of_graphId kind hid
    cases hg : r.graphs.get? id with
    | none =>
      refine ⟨.nothing, some (e.malformed (.graphNotReleased e.kind id)), .inl rfl,
        fun r' h => ?_⟩
      rw [hprocess, markGraph, hid]
      simp only [h.graph htopic, hg]
      rfl
    | some g =>
      refine ⟨.graph id (mark g), none, .inr htopic.symm, fun r' h => ?_⟩
      rw [hprocess, markGraph, hid]
      simp only [h.graph htopic, hg]
      rfl

/-- Naming a task writes the history that the task has, which may be new in the table. -/
theorem exists_effect_nameTask (subject : e.subject = .task)
    (hprocess : ∀ r' : Replay, r'.process e = (r'.see e).nameTask e) :
    ∃ w fault, Effect r e w fault := by
  cases hkey : e.taskKey with
  | error fault =>
    refine ⟨.nothing, some fault, .inl rfl, fun r' _ => ?_⟩
    rw [hprocess, nameTask, hkey]
    rfl
  | ok key =>
    have htopic := topic?_of_taskKey subject hkey
    refine ⟨.task key (r.history key), none, .inr htopic.symm, fun r' h => ?_⟩
    rw [hprocess, nameTask, hkey]
    simp only [h.history htopic]
    rfl

/-- A placement depends on the history of its task alone. It writes that history if it fits, and
else nothing. -/
theorem exists_effect_placeTask (subject : e.subject = .task)
    (hprocess : ∀ r' : Replay, r'.process e = (r'.see e).placeTask e) :
    ∃ w fault, Effect r e w fault := by
  cases hs : e.shares 2 with
  | error fault =>
    refine ⟨.nothing, some fault, .inl rfl, fun r' _ => ?_⟩
    rw [hprocess, placeTask, hs]
    rfl
  | ok shares =>
    cases hkey : e.taskKey with
    | error fault =>
      refine ⟨.nothing, some fault, .inl rfl, fun r' _ => ?_⟩
      rw [hprocess, placeTask, hs, hkey]
      rfl
    | ok key =>
      have htopic := topic?_of_taskKey subject hkey
      cases hrun : (r.history key).running with
      | some current =>
        refine ⟨.nothing, some (e.malformed (.alreadyRunning key.task)), .inl rfl,
          fun r' h => ?_⟩
        rw [hprocess, placeTask, hs, hkey]
        simp only [h.history htopic, hrun]
        rfl
      | none =>
        refine ⟨.task key { r.history key with running := some ⟨e.tick, shares⟩ }, none,
          .inr htopic.symm, fun r' h => ?_⟩
        rw [hprocess, placeTask, hs, hkey]
        simp only [h.history htopic, hrun]
        rfl

/-- The end of a task writes in all cases, also if it does not fit. -/
theorem exists_effect_endTask (subject : e.subject = .task)
    (hprocess : ∀ r' : Replay, r'.process e = (r'.see e).endTask e) :
    ∃ w fault, Effect r e w fault := by
  cases hkey : e.taskKey with
  | error fault =>
    refine ⟨.nothing, some fault, .inl rfl, fun r' _ => ?_⟩
    rw [hprocess, endTask, hkey]
    rfl
  | ok key =>
    have htopic := topic?_of_taskKey subject hkey
    cases hrun : (r.history key).running with
    | none =>
      refine ⟨.task key (r.history key), some (e.malformed (.notRunning key.task)),
        .inr htopic.symm, fun r' h => ?_⟩
      rw [hprocess, endTask, hkey]
      simp only [h.history htopic, hrun]
      rfl
    | some current =>
      by_cases hlt : e.tick < current.start
      · refine ⟨.task key { r.history key with running := none },
          some (e.malformed (.endsBeforePlacement key.task e.tick current.start)),
          .inr htopic.symm, fun r' h => ?_⟩
        rw [hprocess, endTask, hkey]
        simp only [h.history htopic, hrun, if_pos hlt]
        rfl
      · refine ⟨.task key
          ⟨(r.history key).placements ++ [⟨current.start, e.tick, current.shares⟩], none⟩, none,
          .inr htopic.symm, fun r' h => ?_⟩
        rw [hprocess, endTask, hkey]
        simp only [h.history htopic, hrun, if_neg hlt]
        rfl

/-- Every row has an effect, which depends on nothing but what is known about its topic. One case
for each kind of row; the kinds that are skipped write nothing. -/
theorem exists_effect (e : Event) : ∃ w fault, Effect r e w fault := by
  cases hk : e.kind? with
  | none =>
    refine ⟨.nothing, none, .inl rfl, fun r' _ => ?_⟩
    rw [process_eq, hk]
    rfl
  | some kind =>
    have hkind := Event.kind?_eq_some_iff.mp hk
    have hsubject := Event.subject_of_is hkind
    have hprocess := fun r' : Replay => process_eq r' e
    simp only [hk] at hprocess
    cases kind with
    | workerPool => exact exists_effect_declarePool r hkind hprocess
    | graphRelease => exact exists_effect_releaseGraph r hkind hprocess
    | graphFinished | missedDeadline | graphCancel =>
      exact exists_effect_markGraph r (by simp [Event.isMark, hkind]) hprocess
    | taskRelease => exact exists_effect_nameTask r hsubject hprocess
    | taskPlacement => exact exists_effect_placeTask r hsubject hprocess
    | taskFinished | taskPreempt => exact exists_effect_endTask r hsubject hprocess
    | simulatorEnd =>
      refine ⟨.ending e.tick, none, .inr ?_, fun r' _ => hprocess r'⟩
      rw [Event.topic?, hsubject]
      rfl
    | schedulerStart | schedulerFinished | logStats =>
      exact ⟨.nothing, none, .inl rfl, fun r' _ => hprocess r'⟩

end Effects

/-! ## Two rows -/

variable {fault fault' : Option TraceFault}

theorem Effect.process_self (h : Effect r e w fault) : r.process e = ((r.see e).write w, fault) :=
  h.process r (agreesAt_refl r _)

/-- What a row writes is nothing that a row apart from it is about. -/
theorem Write.IsAbout.apart (about : w.IsAbout a) (apart : a.Apart b) :
    w.topic? = none ∨ w.topic? ≠ b.topic? := by
  rcases about with h | h
  · exact .inl h
  · rw [h]
    exact apart

theorem Write.IsAbout.ne (ha : w.IsAbout a) (hb : w'.IsAbout b) (apart : a.Apart b) :
    w.topic? = none ∨ w.topic? ≠ w'.topic? := by
  rcases ha.apart apart with h | h
  · exact .inl h
  · rcases hb with h' | h'
    · by_cases hw : w.topic? = none
      · exact .inl hw
      · exact .inr fun heq => hw (heq.trans h')
    · exact .inr fun heq => h (heq.trans h')

/-- A row does the same behind one about something else. -/
theorem Effect.process_after (ha : Effect r a w fault) (hb : Effect r b w' fault')
    (apart : a.Apart b) :
    (r.process a).1.process b = ((((r.see a).write w).see b).write w', fault') := by
  rw [ha.process_self]
  exact hb.process _ ((agreesAt_see _).trans (agreesAt_write (ha.about.apart apart)))

/-- Two rows add a key to one table exactly if what they write is new there in both cases. -/
theorem Effect.bothAdd_iff (ha : Effect r a w fault) (hb : Effect r b w' fault') :
    r.BothAdd a b ↔ r.BothNew w w' := by
  rw [BothAdd, ha.process_self, hb.process_self]
  cases w <;> cases w' <;>
    simp [write, see, setHistory, BothNew, Keyed.keys_insert_eq_iff]

/-- Rows about different things are answered alike in both orders, whether they fit or not, and they
leave the same state behind exactly if they do not both add a key to the same table. -/
theorem process_comm (r : Replay) {a b : Event} (apart : a.Apart b) :
    ((r.process b).1.process a).2 = (r.process a).2 ∧
      ((r.process a).1.process b).2 = (r.process b).2 ∧
      (((r.process a).1.process b).1 = ((r.process b).1.process a).1 ↔ ¬ r.BothAdd a b) := by
  obtain ⟨w, fault, ha⟩ := exists_effect r a
  obtain ⟨w', fault', hb⟩ := exists_effect r b
  have hab := ha.process_after hb apart
  have hba := hb.process_after ha apart.symm
  refine ⟨?_, ?_, ?_⟩
  · rw [hba, ha.process_self]
  · rw [hab, hb.process_self]
  · have hboth : r.BothAdd a b ↔ ((r.see b).see a).BothNew w w' := by
      rw [ha.bothAdd_iff hb, bothNew_see, bothNew_see]
    rw [hab, hba, hboth, see_write, see_write, see_see]
    exact write_comm_iff (ha.about.ne hb.about apart)

/-- A task is under way, and another one was placed and finished. -/
def twoTasks : Replay := start.processAll [⟨1, 6, "TASK_PLACEMENT", ["g0", "t1", "GPU", "1"]⟩,
  ⟨2, 7, "TASK_PLACEMENT", ["g0", "t2"]⟩, ⟨3, 8, "TASK_FINISHED", ["g0", "t2"]⟩]

/-- An end that comes too early and the end of a task that nobody knows are both refused and both
leave something behind. Two tasks named for the first time are listed in the order of their rows. -/
theorem twoTasks_comm :
    ((twoTasks.process ⟨5, 9, "TASK_PREEMPT", ["g0", "t0"]⟩).1.process
          ⟨4, 4, "TASK_FINISHED", ["g0", "t1"]⟩).2 =
        some (.malformedRow 4 (.endsBeforePlacement "t1" 4 6)) ∧
      ((twoTasks.process ⟨4, 4, "TASK_FINISHED", ["g0", "t1"]⟩).1.process
          ⟨5, 9, "TASK_PREEMPT", ["g0", "t0"]⟩).2 = some (.malformedRow 5 (.notRunning "t0")) ∧
      ((twoTasks.process ⟨4, 4, "TASK_FINISHED", ["g0", "t1"]⟩).1.process
          ⟨5, 9, "TASK_PREEMPT", ["g0", "t0"]⟩).1 =
        ((twoTasks.process ⟨5, 9, "TASK_PREEMPT", ["g0", "t0"]⟩).1.process
          ⟨4, 4, "TASK_FINISHED", ["g0", "t1"]⟩).1 ∧
      ((twoTasks.process ⟨4, 9, "TASK_RELEASE", ["g0", "t0"]⟩).1.process
          ⟨5, 9, "TASK_RELEASE", ["g1", "t0"]⟩).1 ≠
        ((twoTasks.process ⟨5, 9, "TASK_RELEASE", ["g1", "t0"]⟩).1.process
          ⟨4, 9, "TASK_RELEASE", ["g0", "t0"]⟩).1 := by
  have hends := process_comm twoTasks
    (show Event.Apart ⟨4, 4, "TASK_FINISHED", ["g0", "t1"]⟩ ⟨5, 9, "TASK_PREEMPT", ["g0", "t0"]⟩
      by decide)
  have hnames := process_comm twoTasks
    (show Event.Apart ⟨4, 9, "TASK_RELEASE", ["g0", "t0"]⟩ ⟨5, 9, "TASK_RELEASE", ["g1", "t0"]⟩
      by decide)
  have hearly : (twoTasks.process ⟨4, 4, "TASK_FINISHED", ["g0", "t1"]⟩).2 =
      some (.malformedRow 4 (.endsBeforePlacement "t1" 4 6)) := by decide +kernel
  have hunknown : (twoTasks.process ⟨5, 9, "TASK_PREEMPT", ["g0", "t0"]⟩).2 =
      some (.malformedRow 5 (.notRunning "t0")) := by decide +kernel
  refine ⟨hends.1.trans hearly, hends.2.1.trans hunknown, hends.2.2.mpr ?_, ?_⟩
  · unfold BothAdd
    decide +kernel
  · refine fun heq => hnames.2.2.mp heq ?_
    unfold BothAdd
    decide +kernel

end Replay

end ClusterTrace
