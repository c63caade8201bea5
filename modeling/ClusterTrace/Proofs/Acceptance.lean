import ClusterTrace.Proofs.RowFaults
import ClusterTrace.Proofs.TaskPlacements

/-!
# Which traces are replayed, and what is wrong with the others

The rows are checked one after the other, and the names in them at the end, task by task. So a trace
is replayed exactly if it is well formed, and otherwise the fault is that of the first row that does
not fit or, if all rows do, that of the first task with a name that stands for nothing.
-/

namespace ClusterTrace

/-- The resources that the placements of the task name. -/
def usedResources (key : TaskKey) (rows : List Event) : List String :=
  (rows.filter fun e => e.places key).flatMap fun e => resourceNames (e.params.drop 2)

/-- The graph of the task is nowhere in the trace, or else the first resource that is not is this
one. -/
inductive ReferenceFails (checkResources : Bool) (rows : List Event) (key : TaskKey) :
    TraceFault → Prop
  | graph (never : ¬ Released rows key.graph) :
      ReferenceFails checkResources rows key (.unknownGraph key.task key.graph)
  | resource {good rest : List String} {name : String} (released : Released rows key.graph)
      (checked : checkResources = true) (split : usedResources key rows = good ++ name :: rest)
      (earlier : ∀ resource ∈ good, Provided rows resource) (never : ¬ Provided rows name) :
      ReferenceFails checkResources rows key (.unknownResource key.task name)

/-- The fault that is found first in a trace: rows come before references. -/
inductive FirstFault (checkResources : Bool) (rows : List Event) : TraceFault → Prop
  | row {before after : List Event} {e : Event} {fault : TraceFault}
      (split : rows = before ++ e :: after) (earlier : RowsFit before)
      (fails : RowFails before e fault) : FirstFault checkResources rows fault
  | reference {good rest : List TaskKey} {key : TaskKey} {fault : TraceFault} (fit : RowsFit rows)
      (split : namedTasks rows = good ++ key :: rest)
      (earlier : ∀ k ∈ good, ∀ fault, ¬ ReferenceFails checkResources rows k fault)
      (fails : ReferenceFails checkResources rows key fault) : FirstFault checkResources rows fault

/-! ## Rows -/

namespace Replay

variable {rows : List Event} {r : Replay} {fault : TraceFault}

/-- Rows can be replayed one after the other exactly if each of them fits after those before it. The
induction takes rows from the end, since whether a row fits is said by the rows before it. -/
theorem run_ok_iff : (∃ r, start.run rows = .ok r) ↔ RowsFit rows := by
  induction rows using List.reverseRecOn with
  | nil => exact iff_of_true ⟨_, rfl⟩ rowsFit_nil
  | append_singleton rows e ih =>
    rw [rowsFit_concat, ← ih]
    constructor
    · rintro ⟨r, h⟩
      obtain ⟨before, hbefore, hprocess⟩ := run_concat_eq_ok_iff.mp h
      refine ⟨⟨before, hbefore⟩, fits_iff.mpr fun fault hfails => ?_⟩
      rw [← process_fault_iff (reflects_of_run hbefore), hprocess] at hfails
      cases hfails
    · rintro ⟨⟨before, hbefore⟩, hfits⟩
      have hnone : (before.process e).2 = none := by
        refine Option.eq_none_iff_forall_ne_some.mpr fun fault hfault => ?_
        exact fits_iff.mp hfits fault ((process_fault_iff (reflects_of_run hbefore)).mp hfault)
      exact ⟨(before.process e).1, run_concat_eq_ok_iff.mpr ⟨before, hbefore, Prod.ext rfl hnone⟩⟩

/-- The first row that is refused ends the replay, so nothing behind it matters. -/
theorem run_cons_of_fault {e : Event} {rest : List Event} (h : (r.process e).2 = some fault) :
    r.run (e :: rest) = .error fault := by
  rw [run]
  cases hp : r.process e with
  | mk next found =>
    rw [hp] at h
    cases h
    rfl

/-- A run stops at the first row that does not fit, with the fault that this row has after those
before it. The rows behind it have no influence. -/
theorem run_error_iff : start.run rows = .error fault ↔ ∃ before e after,
    rows = before ++ e :: after ∧ RowsFit before ∧ RowFails before e fault := by
  constructor
  · intro h
    induction rows using List.reverseRecOn with
    | nil => cases h
    | append_singleton rows e ih =>
      rw [run_append, bind_eq_error_iff] at h
      rcases h with h | ⟨r, hrun, h⟩
      · obtain ⟨before, x, after, heq, hfit, hfails⟩ := ih h
        exact ⟨before, x, after ++ [e], by rw [heq, List.append_assoc]; rfl, hfit, hfails⟩
      · refine ⟨rows, e, [], rfl, run_ok_iff.mp ⟨r, hrun⟩, ?_⟩
        rw [← process_fault_iff (reflects_of_run hrun)]
        cases hp : (r.process e).2 with
        | some found =>
          rw [run_cons_of_fault hp] at h
          rw [Except.error.inj h]
        | none =>
          have hnext : r.process e = ((r.process e).1, none) := Prod.ext rfl hp
          rw [run_cons_eq_ok_iff.mpr ⟨_, hnext, rfl⟩] at h
          cases h
  · rintro ⟨before, e, after, rfl, hfit, hfails⟩
    obtain ⟨r, hrun⟩ := run_ok_iff.mpr hfit
    rw [run_append, hrun]
    exact run_cons_of_fault ((process_fault_iff (reflects_of_run hrun)).mpr hfails)

/-- Rows fit if none of them has a fault after a part in front of it that fits. -/
theorem rowsFit_iff : RowsFit rows ↔ ∀ fault, ¬ ∃ before e after,
    rows = before ++ e :: after ∧ RowsFit before ∧ RowFails before e fault := by
  rw [← run_ok_iff, ← forall_ne_error_iff]
  simp only [ne_eq, run_error_iff]

/-! ## References -/

/-- The graphs of a replay are those that its rows release. -/
theorem Reflects.contains_graph (hr : r.Reflects rows) (graph : String) :
    r.cluster.graphs.contains graph = true ↔ Released rows graph :=
  Keyed.contains_iff.trans (hr.graphs graph)

/-- The pools are as they are declared last. -/
theorem Reflects.provides_iff (hr : r.Reflects rows) (hfit : RowsFit rows) (resource : String) :
    r.cluster.provides resource = true ↔ Provided rows resource := by
  have hprovides : r.cluster.provides resource = true ↔
      ∃ id pool, r.pools.get? id = some pool ∧ resource ∈ pool.resources.map Share.name := by
    simp [cluster, Cluster.provides, WorkerPool.provides, Keyed.values, Keyed.get?_eq_some_iff]
  rw [hprovides]
  constructor
  · rintro ⟨id, pool, hget, hmem⟩
    obtain ⟨e, he, hread⟩ := hr.get?_pools_iff.mp hget
    refine ⟨id, e, he, ?_⟩
    rwa [← (Event.pool_eq_ok_iff.mp hread).2.map_name]
  · rintro ⟨id, e, he, hmem⟩
    obtain ⟨hin, hdeclares⟩ := List.mem_filter.mp (List.mem_of_getLast? he)
    rw [Event.declares, Bool.and_eq_true, decide_eq_true_eq] at hdeclares
    obtain ⟨-, shares, hlist⟩ := (hfit.each e hin).pool hdeclares.1
    have hread : e.pool = .ok ⟨id, shares⟩ := Event.pool_eq_ok_iff.mpr ⟨hdeclares.2, hlist⟩
    refine ⟨id, ⟨id, shares⟩, hr.get?_pools_iff.mpr ⟨e, he, hread⟩, ?_⟩
    rwa [hlist.map_name]

end Replay

/-- What the placements that some rows begin hold is what the rows list. -/
theorem names_of_fromRow {key : TaskKey} {endTick : Nat} {ps : List (Event × List Event)}
    {placements : List (Placement Double)}
    (h : List.Forall₂ (Placement.FromRow key endTick) ps placements) :
    (placements.flatMap Placement.shares).map Share.name =
      (ps.map Prod.fst).flatMap fun e => resourceNames (e.params.drop 2) := by
  induction h with
  | nil => rfl
  | cons hrow _ ih =>
    rw [List.flatMap_cons, List.map_append, hrow.shares.map_name, ih, List.map_cons,
      List.flatMap_cons]

section References

variable {checkResources : Bool} {rows : List Event} {r : Replay} {fault : TraceFault}

theorem names_of_task (hrun : Replay.start.run rows = .ok r) {t : Task Double}
    (ht : t ∈ r.cluster.tasks) :
    (t.placements.flatMap Placement.shares).map Share.name = usedResources t.key rows := by
  rw [names_of_fromRow (Replay.placements_fromRow hrun ht), map_fst_placings, usedResources]

/-- The first resource of a task that no pool has. -/
theorem resourceFault_iff (hrun : Replay.start.run rows = .ok r) {t : Task Double}
    (ht : t ∈ r.cluster.tasks) :
    ((t.placements.flatMap Placement.shares).find? fun s => !r.cluster.provides s.name).map
        (fun s => TraceFault.unknownResource t.id s.name) = some fault ↔
      ∃ good name rest, usedResources t.key rows = good ++ name :: rest ∧
        (∀ x ∈ good, Provided rows x) ∧ ¬ Provided rows name ∧
        TraceFault.unknownResource t.id name = fault := by
  have hprovides := (Replay.reflects_of_run hrun).provides_iff (Replay.run_ok_iff.mp ⟨r, hrun⟩)
  have hfind : ((t.placements.flatMap Placement.shares).find? fun s =>
      !r.cluster.provides s.name).map (fun s => TraceFault.unknownResource t.id s.name) =
      ((usedResources t.key rows).find? fun name => !r.cluster.provides name).map
        (TraceFault.unknownResource t.id) := by
    rw [← names_of_task hrun ht, List.find?_map, Option.map_map]
    rfl
  simp only [hfind, Option.map_eq_some_iff, List.find?_eq_some_iff_append, Bool.not_not,
    Bool.not_eq_true', ← Bool.not_eq_true, hprovides]
  constructor
  · rintro ⟨name, ⟨hnever, good, rest, hsplit, hgood⟩, hfault⟩
    exact ⟨good, name, rest, hsplit, hgood, hnever, hfault⟩
  · rintro ⟨good, name, rest, hsplit, hgood, hnever, hfault⟩
    exact ⟨name, ⟨hnever, good, rest, hsplit, hgood⟩, hfault⟩

/-- The references of a task are refused exactly with the fault that they have. The graph is looked
at first, and the resources only if they are checked. -/
theorem referenceFault?_iff (hrun : Replay.start.run rows = .ok r) {t : Task Double}
    (ht : t ∈ r.cluster.tasks) :
    Replay.referenceFault? checkResources r.cluster t = some fault ↔
      ReferenceFails checkResources rows t.key fault := by
  have hcontains := (Replay.reflects_of_run hrun).contains_graph t.graph
  unfold Replay.referenceFault?
  by_cases hgraph : Released rows t.graph
  · rw [hcontains.mpr hgraph, Bool.not_true, if_neg Bool.false_ne_true]
    constructor
    · intro h
      split at h
      · rename_i hchecked
        obtain ⟨good, name, rest, hsplit, hgood, hnever, rfl⟩ := (resourceFault_iff hrun ht).mp h
        exact .resource hgraph hchecked hsplit hgood hnever
      · cases h
    · intro h
      cases h with
      | graph never => exact absurd hgraph never
      | resource _ checked split earlier never =>
        rw [if_pos checked, resourceFault_iff hrun ht]
        exact ⟨_, _, _, split, earlier, never, rfl⟩
  · rw [Bool.eq_false_iff.mpr (mt hcontains.mp hgraph), Bool.not_false, if_pos rfl]
    constructor
    · rintro ⟨⟩
      exact .graph hgraph
    · intro h
      cases h with
      | graph => rfl
      | resource released => exact absurd released hgraph

/-- Tasks are checked in the order in which they are first named, and the first that fails is
reported. The state keeps its tasks in this order. -/
theorem finish_error_iff (hrun : Replay.start.run rows = .ok r) :
    r.finish checkResources = .error fault ↔ ∃ good key rest,
      namedTasks rows = good ++ key :: rest ∧
      (∀ k ∈ good, ∀ fault, ¬ ReferenceFails checkResources rows k fault) ∧
      ReferenceFails checkResources rows key fault := by
  have hkeys := (Replay.reflects_of_run hrun).map_key_cluster
  have hnone : ∀ t ∈ r.cluster.tasks,
      Replay.referenceFault? checkResources r.cluster t = none ↔
        ∀ fault, ¬ ReferenceFails checkResources rows t.key fault := by
    intro t ht
    simp only [← referenceFault?_iff hrun ht, Option.eq_none_iff_forall_ne_some, ne_eq]
  rw [Replay.finish_eq_error_iff, List.findSome?_eq_some_iff, ← hkeys]
  constructor
  · rintro ⟨before, t, after, hsplit, hfault, hbefore⟩
    have hmem : ∀ x ∈ before, x ∈ r.cluster.tasks := fun x hx => by
      rw [hsplit]
      exact List.mem_append_left _ hx
    have ht : t ∈ r.cluster.tasks := by rw [hsplit]; simp
    refine ⟨before.map Task.key, t.key, after.map Task.key, by rw [hsplit]; simp, ?_,
      (referenceFault?_iff hrun ht).mp hfault⟩
    intro k hk
    obtain ⟨x, hx, rfl⟩ := List.mem_map.mp hk
    exact (hnone x (hmem x hx)).mp (hbefore x hx)
  · rintro ⟨good, key, rest, hsplit, hgood, hfails⟩
    obtain ⟨before, others, hsplit', rfl, hothers⟩ := List.map_eq_append_iff.mp hsplit
    obtain ⟨t, after, rfl, rfl, rfl⟩ := List.map_eq_cons_iff.mp hothers
    have hmem : ∀ x ∈ before, x ∈ r.cluster.tasks := fun x hx => by
      rw [hsplit']
      exact List.mem_append_left _ hx
    have ht : t ∈ r.cluster.tasks := by rw [hsplit']; simp
    refine ⟨before, t, after, hsplit', (referenceFault?_iff hrun ht).mpr hfails, fun x hx => ?_⟩
    exact (hnone x (hmem x hx)).mpr (hgood x.key (List.mem_map_of_mem hx))

/-- If no member of a list is the first without a property, all have it. -/
theorem forall_mem_of_no_first {α : Type} {P : α → Prop} {l : List α}
    (h : ∀ good x rest, l = good ++ x :: rest → (∀ y ∈ good, P y) → P x) : ∀ x ∈ l, P x := by
  induction l with
  | nil => exact fun x hx => (List.not_mem_nil hx).elim
  | cons a l ih =>
    have ha : P a := h [] a l rfl fun y hy => (List.not_mem_nil hy).elim
    have hl : ∀ x ∈ l, P x := ih fun good x rest heq hgood =>
      h (a :: good) x rest (by rw [heq]; rfl) fun y hy => by
        rcases List.mem_cons.mp hy with rfl | hy
        · exact ha
        · exact hgood y hy
    intro x hx
    rcases List.mem_cons.mp hx with rfl | hx
    · exact ha
    · exact hl x hx

/-- The references of a task are in order if its graph is released somewhere and, where this is
asked for, each resource that it uses is in some pool. -/
theorem forall_not_referenceFails_iff {key : TaskKey} :
    (∀ fault, ¬ ReferenceFails checkResources rows key fault) ↔ Released rows key.graph ∧
      (checkResources = true → ∀ name ∈ usedResources key rows, Provided rows name) := by
  constructor
  · intro h
    have hgraph : Released rows key.graph := not_not.mp fun hnever => h _ (.graph hnever)
    refine ⟨hgraph, fun hchecked => forall_mem_of_no_first fun good name rest hsplit hgood => ?_⟩
    exact not_not.mp fun hnever => h _ (.resource hgraph hchecked hsplit hgood hnever)
  · rintro ⟨hgraph, hresources⟩ fault hfails
    cases hfails with
    | graph never => exact never hgraph
    | resource _ checked split _ never =>
      exact never (hresources checked _ (by rw [split]; simp))

theorem mem_namedTasks {key : TaskKey} :
    key ∈ namedTasks rows ↔ ∃ e ∈ rows, e.isTaskRow = true ∧ e.key? = some key := by
  simp [namedTasks, and_assoc]

/-- The references of all tasks are good exactly if the names in all rows are. -/
theorem wellFormed_iff : WellFormed checkResources rows ↔ RowsFit rows ∧
    ∀ key ∈ namedTasks rows, ∀ fault, ¬ ReferenceFails checkResources rows key fault := by
  simp only [forall_not_referenceFails_iff]
  constructor
  · rintro ⟨fit, graphs, resources⟩
    refine ⟨fit, fun key hkey => ⟨graphs key hkey, fun hchecked name hname => ?_⟩⟩
    obtain ⟨e, he, hin⟩ := List.mem_flatMap.mp hname
    obtain ⟨hrow, hplaces⟩ := List.mem_filter.mp he
    exact resources hchecked e hrow (Event.places_iff.mp hplaces).1 name hin
  · rintro ⟨fit, hall⟩
    refine ⟨fit, fun key hkey => (hall key hkey).1, fun hchecked e he kind name hname => ?_⟩
    have htask : e.isTaskRow = true := Event.isTaskRow_iff.mpr (Event.subject_of_is kind)
    have hlong := (fit.each e he).task htask
    obtain ⟨key, hkey⟩ : ∃ key, e.key? = some key := by
      match hp : e.params, hlong with
      | graph :: task :: _, _ => exact ⟨⟨graph, task⟩, by rw [Event.key?, hp]⟩
    have hused : name ∈ usedResources key rows :=
      List.mem_flatMap.mpr ⟨e, List.mem_filter.mpr ⟨he, Event.places_iff.mpr ⟨kind, hkey⟩⟩, hname⟩
    exact (hall key (mem_namedTasks.mpr ⟨e, he, htask, hkey⟩)).2 hchecked name hused

end References

/-- A trace is replayed exactly if it is well formed, and otherwise the fault that is found first is
reported. -/
theorem replay_wellFormed_or_firstFault (rows : List Event) (checkResources : Bool) :
    ((∃ c, replay rows checkResources = .ok c) ↔ WellFormed checkResources rows) ∧
      ∀ fault,
        replay rows checkResources = .error fault ↔ FirstFault checkResources rows fault := by
  have herror : ∀ fault,
      replay rows checkResources = .error fault ↔ FirstFault checkResources rows fault := by
    intro fault
    rw [replay, bind_eq_error_iff, Replay.run_error_iff]
    constructor
    · rintro (⟨before, e, after, hsplit, hfit, hfails⟩ | ⟨r, hrun, hfinish⟩)
      · exact .row hsplit hfit hfails
      · obtain ⟨good, key, rest, hsplit, hgood, hfails⟩ := (finish_error_iff hrun).mp hfinish
        exact .reference (Replay.run_ok_iff.mp ⟨r, hrun⟩) hsplit hgood hfails
    · intro h
      cases h with
      | row split earlier fails => exact Or.inl ⟨_, _, _, split, earlier, fails⟩
      | reference fit split earlier fails =>
        obtain ⟨r, hrun⟩ := Replay.run_ok_iff.mpr fit
        exact Or.inr ⟨r, hrun, (finish_error_iff hrun).mpr ⟨_, _, _, split, earlier, fails⟩⟩
  refine ⟨?_, herror⟩
  rw [← forall_ne_error_iff, wellFormed_iff]
  simp only [ne_eq, herror]
  constructor
  · intro h
    have hfit : RowsFit rows := Replay.rowsFit_iff.mpr fun fault ⟨_, _, _, split, earlier, fails⟩ =>
      h fault (.row split earlier fails)
    refine ⟨hfit, forall_mem_of_no_first fun good key rest hsplit hgood fault hfails => ?_⟩
    exact h fault (.reference hfit hsplit hgood hfails)
  · rintro ⟨hfit, hall⟩ fault hfirst
    cases hfirst with
    | row split earlier fails =>
      exact Replay.rowsFit_iff.mp hfit fault ⟨_, _, _, split, earlier, fails⟩
    | reference _ split _ fails => exact hall _ (by rw [split]; simp) _ fails

end ClusterTrace
