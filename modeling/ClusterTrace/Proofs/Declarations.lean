import ClusterTrace.Proofs.TaskPlacements

/-!
# Task graphs and pools as they are declared last

A graph may be released again and a pool declared again. The last row counts: a later release makes
the graph anew, so that only what is told about it afterwards stays, and a later declaration
replaces what the pool has. The place among the others is that of the first row. So the graphs and
the pools of a cluster are a function of the rows, wherever the rows of the tasks stand between
them.
-/

namespace ClusterTrace

/-! ## Rows about graphs and pools -/

namespace Event

/-- The graph that the row releases. -/
def released? (e : Event) : Option String := if e.is .graphRelease then e.params[2]? else none

/-- The pool that the row declares. -/
def declared? (e : Event) : Option String := if e.is .workerPool then e.params[0]? else none

/-- The row tells of the graph that this became of it. -/
def tells (e : Event) (kind : EventKind) (graph : String) : Bool :=
  e.is kind && decide (e.params[0]? = some graph)

/-- The graph after a row, if it does not release it. -/
def markOf (e : Event) (graph : String) (g : TaskGraph) : TaskGraph :=
  { g with
    completed := g.completed || e.tells .graphFinished graph
    missedDeadline := g.missedDeadline || e.tells .missedDeadline graph
    cancelled := g.cancelled || e.tells .graphCancel graph }

/-- A row releases a graph if it is read as a release and this is the name of the graph in it. -/
theorem released?_eq_some_iff {e : Event} {graph : String} :
    e.released? = some graph ↔ e.releases graph = true := by
  rw [released?, releases, Bool.and_eq_true, decide_eq_true_eq]
  cases e.is .graphRelease <;> simp

/-- Only rows that say what became of a graph change a mark. -/
theorem markOf_eq_self {e : Event} (h : e.subject ≠ .mark) (graph : String) (g : TaskGraph) :
    e.markOf graph g = g := by
  have htells : ∀ kind : EventKind, kind.subject = .mark → e.tells kind graph = false := by
    intro kind hkind
    rw [tells, is_eq_false (hkind ▸ h), Bool.false_and]
  unfold markOf
  rw [htells _ rfl, htells _ rfl, htells _ rfl]
  simp only [Bool.or_false]

theorem markOf_eq_mark {e : Event} {graph : String} (h : e.params[0]? = some graph)
    (g : TaskGraph) : e.markOf graph g = e.mark g := by
  simp [markOf, mark, tells, h]

/-- A row about another graph changes no mark of this one. -/
theorem markOf_of_ne {e : Event} {graph : String} (h : e.params[0]? ≠ some graph)
    (g : TaskGraph) : e.markOf graph g = g := by
  simp [markOf, tells, h]

end Event

/-- The graphs that rows release, in the order in which they are first released. -/
def releasedGraphs (rows : List Event) : List String := (rows.filterMap Event.released?).eraseDups

/-- The pools that rows declare, in the order in which they are first declared. -/
def declaredPools (rows : List Event) : List String := (rows.filterMap Event.declared?).eraseDups

/-- The last row that releases a graph, and the rows after it. -/
structure LastRelease (rows : List Event) (graph : String) (release : Event)
    (since : List Event) : Prop where
  split : ∃ before, rows = before ++ release :: since
  releases : release.releases graph = true
  last : ∀ e ∈ since, e.releases graph = false

/-- The graph is what the row that releases it and the rows after it say. -/
structure TaskGraph.FromRows (release : Event) (since : List Event) (g : TaskGraph) : Prop where
  releaseTick : ∃ text, release.params[0]? = some text ∧ readNatural? text = some g.releaseTick
  deadlineTick : ∃ text, release.params[1]? = some text ∧ readNatural? text = some g.deadlineTick
  id : release.params[2]? = some g.id
  criticalPath : ∃ text, release.params.getLast? = some text ∧
    readNatural? text = some g.criticalPath
  completed : g.completed = since.any fun e => e.tells .graphFinished g.id
  missedDeadline : g.missedDeadline = since.any fun e => e.tells .missedDeadline g.id
  cancelled : g.cancelled = since.any fun e => e.tells .graphCancel g.id

/-- The graph has been finished since its last release, and has not missed its deadline since. -/
def GoodSinceRelease (rows : List Event) (graph : String) : Prop :=
  ∃ release since, LastRelease rows graph release since ∧
    (∃ e ∈ since, e.tells .graphFinished graph = true) ∧
    ∀ e ∈ since, e.tells .missedDeadline graph = false

/-- The quantities of a resource in a list of names and quantities. -/
def listedQuantities (resource : String) : List String → List Double
  | name :: text :: rest =>
    (if name = resource then (Double.read? text).toList else []) ++ listedQuantities resource rest
  | _ => []

/-- The quantities of a resource in the last row that declares a pool. -/
def lastQuantities (rows : List Event) (resource pool : String) : List Double :=
  (declaration? rows pool).elim [] fun e => listedQuantities resource (e.params.drop 1)

/-- The graphs and the pools of a cluster are those that the rows declare, as they do last. -/
structure Cluster.AsDeclared (rows : List Event) (c : Cluster Double) : Prop where
  /-- The graphs stand in the order of their first release. -/
  graphs : c.graphs.keys = releasedGraphs rows
  /-- Each of them is as it has become since its last release. -/
  graph : ∀ graph g, c.graphs.get? graph = some g → g.id = graph ∧
    ∃ release since, LastRelease rows graph release since ∧ g.FromRows release since
  /-- What tasks of a graph hold counts as good if the graph is good since then. -/
  good : ∀ graph, c.isGoodGraph graph = true ↔ GoodSinceRelease rows graph
  /-- The pools stand in the order of their first declaration and have what the last one lists. -/
  pools : List.Forall₂ (fun pool p => p.id = pool ∧
    ∃ e, declaration? rows pool = some e ∧ ListsShares (e.params.drop 1) p.resources)
    (declaredPools rows) c.pools
  /-- The capacity is added up from the last declarations. -/
  capacity : ∀ resource, c.capacity resource =
    Scalar.sum ((declaredPools rows).map fun pool =>
      Scalar.sum (lastQuantities rows resource pool))

/-! ## One more row -/

section Concat

variable {rows : List Event} {e : Event}

/-- A row that does not release the graph comes behind the last release. -/
theorem LastRelease.concat {graph : String} {release : Event} {since : List Event}
    (h : LastRelease rows graph release since) (he : e.releases graph = false) :
    LastRelease (rows ++ [e]) graph release (since ++ [e]) := by
  obtain ⟨before, hsplit⟩ := h.split
  refine ⟨⟨before, ?_⟩, h.releases, fun a ha => ?_⟩
  · rw [hsplit, List.append_assoc, List.cons_append]
  · rcases List.mem_append.mp ha with ha | ha
    · exact h.last a ha
    · rw [List.mem_singleton.mp ha]
      exact he

theorem lastRelease_concat {graph : String} (he : e.releases graph = true) :
    LastRelease (rows ++ [e]) graph e [] :=
  ⟨⟨rows, rfl⟩, he, fun _ ha => (List.not_mem_nil ha).elim⟩

/-- The last release is one row only, and so are the rows since then. -/
theorem LastRelease.unique {graph : String} {release release' : Event} {since since' : List Event}
    (h : LastRelease rows graph release since) (h' : LastRelease rows graph release' since') :
    since = since' := by
  obtain ⟨before, hsplit⟩ := h.split
  obtain ⟨before', hsplit'⟩ := h'.split
  -- If one of them came later, it would be among the rows after the other.
  rcases List.append_eq_append_iff.mp (hsplit.symm.trans hsplit') with
    ⟨later, hbefore, hrest⟩ | ⟨later, hbefore, hrest⟩
  · cases later with
    | nil => exact (List.cons.inj hrest).2
    | cons a later =>
      obtain ⟨rfl, hsince⟩ := List.cons.inj hrest
      have hnot := h.last release' (by rw [hsince]; simp)
      rw [h'.releases] at hnot
      cases hnot
  · cases later with
    | nil => exact (List.cons.inj hrest).2.symm
    | cons a later =>
      obtain ⟨rfl, hsince⟩ := List.cons.inj hrest
      have hnot := h'.last release (by rw [hsince]; simp)
      rw [h.releases] at hnot
      cases hnot

theorem LastRelease.mem_releasedGraphs {graph : String} {release : Event} {since : List Event}
    (h : LastRelease rows graph release since) : graph ∈ releasedGraphs rows := by
  obtain ⟨before, hsplit⟩ := h.split
  rw [releasedGraphs, List.mem_eraseDups, List.mem_filterMap]
  exact ⟨release, by rw [hsplit]; simp, Event.released?_eq_some_iff.mpr h.releases⟩

/-- A row that does not release the graph adds what it tells. -/
theorem TaskGraph.FromRows.concat {g : TaskGraph} {release : Event} {since : List Event}
    (h : g.FromRows release since) : (e.markOf g.id g).FromRows release (since ++ [e]) where
  releaseTick := h.releaseTick
  deadlineTick := h.deadlineTick
  id := h.id
  criticalPath := h.criticalPath
  completed := by simp [Event.markOf, h.completed]
  missedDeadline := by simp [Event.markOf, h.missedDeadline]
  cancelled := by simp [Event.markOf, h.cancelled]

/-- A graph that has just been released is unmarked, whatever was said about an earlier one of its
name. -/
theorem TaskGraph.fromRows_released {g : TaskGraph} (h : e.releasedGraph = .ok g) :
    g.FromRows e [] := by
  obtain ⟨hrelease, hdeadline, hid, hpath, hcompleted, hmissed, hcancelled⟩ :=
    Event.releasedGraph_eq_ok_iff.mp h
  exact ⟨hrelease, hdeadline, hid, hpath, hcompleted, hmissed, hcancelled⟩

end Concat

/-- The quantities of a resource are those that stand behind its name, in their order. A resource
may be listed more than once. -/
theorem ListsShares.quantities {fields : List String} {shares : List (Share Double)}
    (h : ListsShares fields shares) (resource : String) :
    (shares.filter fun s => s.name = resource).map Share.quantity =
      listedQuantities resource fields := by
  induction h with
  | nil => rfl
  | @cons name text x fields shares read _ _ _ ih =>
    rw [listedQuantities, ← ih, read]
    by_cases hname : name = resource <;> simp [hname]

/-! ## The graphs and the pools after a step -/

namespace Replay

variable {rows : List Event} {r r' : Replay} {e : Event}

/-- A graph that is released for the first time comes last; one that is released again keeps its
place. -/
theorem Step.keys_graphs (h : Step r e r') :
    r'.graphs.keys =
      match e.released? with
      | some graph =>
        if graph ∈ r.graphs.keys then r.graphs.keys else r.graphs.keys ++ [graph]
      | none => r.graphs.keys := by
  have hkept : e.subject ≠ .release → e.released? = none := by
    intro hsubject
    rw [Event.released?, Event.is_eq_false hsubject]
    rfl
  have hgraphs := h.graphs
  generalize r'.graphs = after at hgraphs
  cases hgraphs with
  | idle release mark =>
    rw [hkept release]
  | released kind read =>
    obtain ⟨_, _, hid, _⟩ := Event.releasedGraph_eq_ok_iff.mp read
    rw [Event.released?, kind, if_pos rfl, hid]
    exact Keyed.keys_insert _ _ _
  | marked kind read known =>
    rw [hkept (by rw [Event.subject_of_isMark kind]; decide), Keyed.keys_insert,
      if_pos (Keyed.mem_keys_of_get? known)]

/-- A pool that is declared for the first time comes last; one that is declared again keeps its
place. -/
theorem Step.keys_pools (h : Step r e r') :
    r'.pools.keys =
      match e.declared? with
      | some id => if id ∈ r.pools.keys then r.pools.keys else r.pools.keys ++ [id]
      | none => r.pools.keys := by
  have hpools := h.pools
  generalize r'.pools = after at hpools
  cases hpools with
  | idle subject =>
    rw [Event.declared?, Event.is_eq_false subject]
    rfl
  | declared kind read =>
    rw [Event.declared?, kind, if_pos rfl, (Event.pool_eq_ok_iff.mp read).1]
    exact Keyed.keys_insert _ _ _

/-- A graph is as the row releases it, or else as it was with what the row tells. One case for each
way in which a row may change the table of graphs. -/
theorem Step.get?_graphs (h : Step r e r') (graph : String) :
    r'.graphs.get? graph =
      if e.releases graph then e.releasedGraph.toOption
      else (r.graphs.get? graph).map (e.markOf graph) := by
  have hkeep : e.subject ≠ .mark →
      (r.graphs.get? graph).map (e.markOf graph) = r.graphs.get? graph := by
    intro hsubject
    rw [funext (Event.markOf_eq_self hsubject graph), Option.map_id']
  have hgraphs := h.graphs
  generalize r'.graphs = after at hgraphs
  cases hgraphs with
  | idle release mark =>
    rw [hkeep mark, Event.releases, Event.is_eq_false release]
    rfl
  | @released g kind read =>
    obtain ⟨_, _, hid, _⟩ := Event.releasedGraph_eq_ok_iff.mp read
    rw [Keyed.get?_insert, hkeep (by rw [Event.subject_of_is kind]; decide), Event.releases, kind,
      hid, read]
    simp [Except.toOption]
  | @marked id g kind read known =>
    have hsubject := Event.subject_of_isMark kind
    rw [Keyed.get?_insert, Event.releases, Event.is_eq_false (by rw [hsubject]; decide)]
    by_cases hid : id = graph
    · subst hid
      rw [if_pos rfl, known, Option.map_some, Event.markOf_eq_mark read]
      rfl
    · have hne : e.params[0]? ≠ some graph := by
        rw [read]
        exact fun heq => hid (Option.some.inj heq)
      rw [if_neg hid, funext (Event.markOf_of_ne hne), Option.map_id']
      rfl

/-! ## The invariant -/

/-- The graphs and the pools of the state are as the rows declare them last. -/
structure Declared (rows : List Event) (r : Replay) : Prop where
  graphs : r.graphs.keys = releasedGraphs rows
  graph : ∀ graph g, r.graphs.get? graph = some g → g.id = graph ∧
    ∃ release since, LastRelease rows graph release since ∧ g.FromRows release since
  pools : r.pools.keys = declaredPools rows

theorem declared_start : start.Declared [] where
  graphs := rfl
  graph := fun _ _ h => by cases h
  pools := rfl

/-- One more row changes the graphs and the pools as it changes the last releases and the last
declarations. All rows about tasks leave both alone. -/
theorem Declared.step (hr : r.Declared rows) (h : Step r e r') : r'.Declared (rows ++ [e]) where
  graphs := by
    rw [h.keys_graphs, hr.graphs, releasedGraphs, releasedGraphs, eraseDups_filterMap_concat]
    cases e.released? <;> rfl
  graph := fun graph g hg => by
    rw [h.get?_graphs] at hg
    -- A release begins a new history of the graph; any other row is added to the one it has.
    cases hreleases : e.releases graph with
    | true =>
      rw [hreleases, if_pos rfl, toOption_eq_some_iff] at hg
      exact ⟨Event.id_of_releases hreleases hg, e, [], lastRelease_concat hreleases,
        TaskGraph.fromRows_released hg⟩
    | false =>
      rw [hreleases, if_neg Bool.false_ne_true, Option.map_eq_some_iff] at hg
      obtain ⟨old, hold, rfl⟩ := hg
      obtain ⟨rfl, release, since, hlast, hrows⟩ := hr.graph graph old hold
      exact ⟨rfl, release, since ++ [e], hlast.concat hreleases, hrows.concat⟩
  pools := by
    rw [h.keys_pools, hr.pools, declaredPools, declaredPools, eraseDups_filterMap_concat]
    cases e.declared? <;> rfl

/-- So the invariant holds after every run of rows without a fault. -/
theorem declared_of_run (h : start.run rows = .ok r) : r.Declared rows := by
  induction rows using List.reverseRecOn generalizing r with
  | nil =>
    cases h
    exact declared_start
  | append_singleton rows e ih =>
    obtain ⟨before, hbefore, hprocess⟩ := run_concat_eq_ok_iff.mp h
    exact (ih hbefore).step (step_of_process hprocess)

/-! ## The cluster -/

/-- Use counts as good on the grounds of what was said about the graph since its last release. A
graph that was never released is not known, and its use is not good. -/
theorem Declared.isGoodGraph_iff (hr : r.Declared rows) (graph : String) :
    r.cluster.isGoodGraph graph = true ↔ GoodSinceRelease rows graph := by
  cases hg : r.graphs.get? graph with
  | none =>
    have hnever : ¬ GoodSinceRelease rows graph := by
      rintro ⟨release, since, hlast, -⟩
      have hmem := hlast.mem_releasedGraphs
      rw [← hr.graphs] at hmem
      exact Keyed.get?_eq_none_iff.mp hg hmem
    have hbad : r.cluster.isGoodGraph graph = false := by
      simp only [Cluster.isGoodGraph, cluster, hg]
    simp [hbad, hnever]
  | some g =>
    obtain ⟨rfl, release, since, hlast, hrows⟩ := hr.graph graph g hg
    have hgood : r.cluster.isGoodGraph g.id = g.isGood := by
      simp only [Cluster.isGoodGraph, cluster, hg]
    rw [hgood, TaskGraph.isGood, hrows.completed, hrows.missedDeadline]
    constructor
    · intro h
      exact ⟨release, since, hlast, by simpa using h⟩
    · rintro ⟨release', since', hlast', htold⟩
      rw [hlast.unique hlast']
      simpa using htold

/-- The row that a pool of the state comes from. -/
theorem Reflects.declaration_of_get? (hr : r.Reflects rows) {pool : String} {p : WorkerPool Double}
    (h : r.pools.get? pool = some p) : p.id = pool ∧
      ∃ e, declaration? rows pool = some e ∧ ListsShares (e.params.drop 1) p.resources := by
  obtain ⟨e, hlast, hread⟩ := hr.get?_pools_iff.mp h
  have hdeclares : e.declares pool = true := (List.mem_filter.mp (List.mem_of_getLast? hlast)).2
  exact ⟨Event.id_of_declares hdeclares hread, e, hlast, (Event.pool_eq_ok_iff.mp hread).2⟩

/-- What the invariants say of a replay is what the cluster shows, whose pools are listed in the
order of the table. -/
theorem asDeclared_cluster (hr : r.Reflects rows) (hd : r.Declared rows) :
    r.cluster.AsDeclared rows := by
  have hentry : ∀ entry ∈ r.pools.entries, entry.2.id = entry.1 ∧
      ∃ e, declaration? rows entry.1 = some e ∧ ListsShares (e.params.drop 1) entry.2.resources :=
    fun entry hentry => hr.declaration_of_get? (Keyed.get?_eq_some_iff.mpr hentry)
  refine ⟨hd.graphs, hd.graph, hd.isGoodGraph_iff, ?_, fun resource => ?_⟩
  · rw [← hd.pools, cluster, Keyed.keys, Keyed.values, List.forall₂_map_left_iff,
      List.forall₂_map_right_iff, List.forall₂_same]
    exact hentry
  · rw [← hd.pools, cluster, Cluster.capacity, Keyed.keys, Keyed.values, List.map_map, List.map_map]
    refine congrArg Scalar.sum (List.map_congr_left fun entry hmem => ?_)
    obtain ⟨-, e, hlast, hlisted⟩ := hentry entry hmem
    rw [Function.comp, Function.comp, WorkerPool.capacityOf, hlisted.quantities, lastQuantities,
      hlast]
    rfl

end Replay

/-- The graphs and the pools of a replay are as its rows declare them last, in the order in which
they are first declared. -/
theorem replay_asDeclared {rows : List Event} {check : Bool} {r : Replay} {c : Cluster Double}
    (hrun : Replay.start.run rows = .ok r) (hfinish : r.finish check = .ok c) :
    c.AsDeclared rows := by
  obtain ⟨rfl, -⟩ := Replay.finish_eq_ok_iff.mp hfinish
  exact Replay.asDeclared_cluster (Replay.reflects_of_run hrun) (Replay.declared_of_run hrun)

/-- A graph and a pool that are declared twice, with rows about the graph before, between and after
its releases. -/
def redeclaringTrace : List Event :=
  [⟨1, 0, "WORKER_POOL", ["pool1", "GPU", "4", "CPU", "1"]⟩,
   ⟨2, 0, "TASK_GRAPH_RELEASE", ["0", "50", "g1", "1", "9"]⟩,
   ⟨3, 0, "TASK_GRAPH_RELEASE", ["0", "40", "g0", "1", "9"]⟩,
   ⟨4, 1, "WORKER_POOL", ["pool0", "GPU", "1"]⟩,
   ⟨5, 2, "TASK_PLACEMENT", ["g1", "t0", "GPU", "1"]⟩,
   ⟨6, 3, "MISSED_TASK_GRAPH_DEADLINE", ["g1"]⟩,
   ⟨7, 3, "TASK_GRAPH_FINISHED", ["g0"]⟩,
   ⟨8, 4, "TASK_GRAPH_RELEASE", ["4", "60", "g1", "2", "7"]⟩,
   ⟨9, 5, "TASK_FINISHED", ["g1", "t0"]⟩,
   ⟨10, 6, "WORKER_POOL", ["pool1", "GPU", "2"]⟩,
   ⟨11, 7, "TASK_GRAPH_RELEASE", ["7", "80", "g0", "1", "9"]⟩,
   ⟨12, 9, "TASK_GRAPH_FINISHED", ["g1"]⟩]

/-- A graph that is released again has lost its marks, and the pools and graphs stand where they
were declared first. -/
theorem redeclaringTrace_asDeclared : ∃ r c, Replay.start.run redeclaringTrace = .ok r ∧
    r.finish true = .ok c ∧ c.AsDeclared redeclaringTrace ∧
    releasedGraphs redeclaringTrace = ["g1", "g0"] ∧
    declaredPools redeclaringTrace = ["pool1", "pool0"] ∧
    c.isGoodGraph "g1" = true ∧ c.isGoodGraph "g0" = false := by
  have hok : (replay redeclaringTrace true).toOption.any
      (fun c => c.isGoodGraph "g1" && !c.isGoodGraph "g0") = true := by decide +kernel
  obtain ⟨c, hc, hgood⟩ := exists_of_any_toOption hok
  rw [Bool.and_eq_true, Bool.not_eq_true'] at hgood
  obtain ⟨r, hrun, hfinish⟩ := replay_eq_ok_iff.mp hc
  have hgraphs : releasedGraphs redeclaringTrace = ["g1", "g0"] := by decide +kernel
  have hpools : declaredPools redeclaringTrace = ["pool1", "pool0"] := by decide +kernel
  exact ⟨r, c, hrun, hfinish, replay_asDeclared hrun hfinish, hgraphs, hpools, hgood⟩

end ClusterTrace
