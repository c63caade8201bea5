import ClusterTrace.Proofs.Declarations
import ClusterTrace.Proofs.DoubleOrder
import ClusterTrace.Proofs.UsagePerTick

/-!
# The cluster of any calls

A replay may be handed any rows and goes on after those that it refuses. If it can be finished at
all, the cluster is sound. Refused rows do no harm to this: what they leave half done is a task with
nothing but a name or a placement that is dropped. And a placement that still runs is never closed
before it began, even if the end of the simulation was marked at an earlier tick.
-/

namespace ClusterTrace

/-- The quantities are finite and not negative. -/
def Proper (shares : List (Share Double)) : Prop :=
  ∀ s ∈ shares, s.quantity.isFinite = true ∧ Double.zero.AtMost s.quantity

/-- What is known of a task makes sense. -/
structure TaskHistory.Sound (h : TaskHistory) : Prop where
  ordered : ∀ p ∈ h.placements, p.start ≤ p.completion
  proper : ∀ p ∈ h.placements, Proper p.shares
  running : ∀ current, h.running = some current → Proper current.shares

/-- What is known after some events makes sense. -/
structure Replay.Sound (r : Replay) : Prop where
  history : ∀ key, (r.history key).Sound
  graphs : ∀ id g, r.graphs.get? id = some g → g.id = id
  pools : ∀ id p, r.pools.get? id = some p → p.id = id

/-- A cluster makes sense; its resources do if they have been checked. -/
structure Cluster.Sound (checked : Bool) (c : Cluster Double) : Prop where
  /-- No placement ends before it begins, so the subtraction in its duration is exact. -/
  ordered : ∀ t ∈ c.tasks, ∀ p ∈ t.placements,
    p.start ≤ p.completion ∧ p.start + p.duration = p.completion
  proper : ∀ t ∈ c.tasks, ∀ p ∈ t.placements, Proper p.shares
  /-- No two tasks have the same graph and name. -/
  tasks : (c.tasks.map Task.key).Nodup
  graph : ∀ t ∈ c.tasks, t.graph ∈ c.graphs.keys
  graphs : ∀ id g, c.graphs.get? id = some g → g.id = id
  pools : (c.pools.map WorkerPool.id).Nodup
  listed : checked = true → ∀ t ∈ c.tasks, ∀ p ∈ t.placements, ∀ s ∈ p.shares,
    ∃ pool ∈ c.pools, ∃ resource ∈ pool.resources, resource.name = s.name

/-! ## Tasks -/

theorem ListsShares.proper {fields : List String} {shares : List (Share Double)}
    (h : ListsShares fields shares) : Proper shares := by
  intro s hs
  obtain ⟨hfinite, hless⟩ := h.quantity s hs
  exact ⟨hfinite, (Double.nonneg_of_not_less hfinite hless).zero_atMost⟩

namespace TaskHistory

variable {h h' : TaskHistory}

theorem sound_fresh : fresh.Sound where
  ordered := fun p hp => (List.not_mem_nil hp).elim
  proper := fun p hp => (List.not_mem_nil hp).elim
  running := fun current hrun => by cases hrun

theorem Sound.withRunning (hs : h.Sound) {running : Option Running}
    (hproper : ∀ current, running = some current → Proper current.shares) :
    Sound { h with running } where
  ordered := hs.ordered
  proper := hs.proper
  running := hproper

/-- The placement under way is added to the completed ones. -/
theorem Sound.completed (hs : h.Sound) {current : Running} (hrun : h.running = some current)
    {tick : Nat} (hle : current.start ≤ tick) :
    Sound ⟨h.placements ++ [⟨current.start, tick, current.shares⟩], none⟩ where
  ordered := fun p hp => by
    rcases List.mem_append.mp hp with hp | hp
    · exact hs.ordered p hp
    · obtain rfl := List.mem_singleton.mp hp
      exact hle
  proper := fun p hp => by
    rcases List.mem_append.mp hp with hp | hp
    · exact hs.proper p hp
    · obtain rfl := List.mem_singleton.mp hp
      exact hs.running current hrun
  running := fun current hnone => by cases hnone

/-- The end of the trace completes the placement under way, even if it comes before its begin. -/
theorem Sound.closed (hs : h.Sound) (endTick : Nat) :
    Sound ⟨Replay.closedPlacements endTick h, none⟩ := by
  unfold Replay.closedPlacements
  cases hrun : h.running with
  | none => exact hs.withRunning fun current hnone => by cases hnone
  | some current => exact hs.completed hrun (Nat.le_max_right endTick current.start)

end TaskHistory

namespace Replay

variable {r r' : Replay} {e : Event}

theorem HistoryStep.sound {key : TaskKey} {h h' : TaskHistory} (hs : h.Sound)
    (hstep : HistoryStep e key h h') : h'.Sound := by
  cases hstep with
  | idle places ends => exact hs
  | placed places listed idle =>
    have hlisted := Event.shares_eq_ok_iff.mp listed
    refine hs.withRunning fun current hcurrent => ?_
    obtain rfl := Option.some.inj hcurrent
    exact hlisted.proper
  | ended ends running ordered => exact hs.completed running ordered

/-! ## What every row keeps -/

theorem sound_start : start.Sound where
  history := fun _ => TaskHistory.sound_fresh
  graphs := fun id g hg => by cases hg
  pools := fun id p hp => by cases hp

theorem Sound.step (hr : r.Sound) (h : Step r e r') : r'.Sound where
  history := fun key => (h.history key).sound (hr.history key)
  graphs := fun id g hg => by
    rw [h.get?_graphs] at hg
    cases hreleases : e.releases id with
    | true =>
      rw [hreleases, if_pos rfl, toOption_eq_some_iff] at hg
      exact Event.id_of_releases hreleases hg
    | false =>
      rw [hreleases, if_neg Bool.false_ne_true, Option.map_eq_some_iff] at hg
      obtain ⟨old, hold, rfl⟩ := hg
      exact hr.graphs id old hold
  pools := fun id p hp => by
    rw [h.get?_pools] at hp
    cases hdeclares : e.declares id with
    | true =>
      rw [hdeclares, if_pos rfl, toOption_eq_some_iff] at hp
      exact Event.id_of_declares hdeclares hp
    | false =>
      rw [hdeclares, if_neg Bool.false_ne_true] at hp
      exact hr.pools id p hp

theorem Sound.refusal (hr : r.Sound) (h : Refusal r e r') : r'.Sound where
  history := fun key => by
    -- A refused row completes nothing, so there is no new interval to check.
    rcases h.history key with hkept | hdropped
    · rw [hkept]
      exact hr.history key
    · rw [hdropped]
      exact (hr.history key).withRunning fun current hnone => by cases hnone
  graphs := by
    rw [h.graphs]
    exact hr.graphs
  pools := by
    rw [h.pools]
    exact hr.pools

theorem sound_processAll (events : List Event) : (start.processAll events).Sound :=
  processAll_induction sound_start Sound.step Sound.refusal events

/-! ## The cluster -/

/-- A task without a fault in its references. -/
theorem referenceFault?_eq_none_iff {check : Bool} {c : Cluster Double} {t : Task Double} :
    referenceFault? check c t = none ↔ t.graph ∈ c.graphs.keys ∧
      (check = true → ∀ p ∈ t.placements, ∀ s ∈ p.shares, c.provides s.name = true) := by
  unfold referenceFault?
  by_cases hgraph : t.graph ∈ c.graphs.keys
  · rw [Keyed.contains_iff.mpr hgraph, Bool.not_true, if_neg Bool.false_ne_true]
    cases check with
    | false => simp [hgraph]
    | true =>
      simp only [hgraph, if_pos, true_and, forall_true_left, Option.map_eq_none_iff,
        List.find?_eq_none, List.mem_flatMap, forall_exists_index, and_imp, Bool.not_eq_true,
        Bool.not_eq_false']
      exact ⟨fun h p hp s hs => h s p hp hs, fun h s p hp hs => h p hp s hs⟩
  · have hunknown : c.graphs.contains t.graph = false :=
      Bool.eq_false_iff.mpr (mt Keyed.contains_iff.mp hgraph)
    rw [hunknown, Bool.not_false, if_pos rfl]
    exact ⟨fun h => (by cases h), fun h => absurd h.1 hgraph⟩

theorem provides_iff {c : Cluster Double} {resource : String} :
    c.provides resource = true ↔
      ∃ pool ∈ c.pools, ∃ s ∈ pool.resources, s.name = resource := by
  simp [Cluster.provides, WorkerPool.provides]

theorem Sound.cluster (hr : r.Sound) {check : Bool}
    (hfault : ∀ t ∈ r.cluster.tasks, referenceFault? check r.cluster t = none) :
    r.cluster.Sound check := by
  -- The histories of the tasks are sound, and closing them keeps that.
  have hclosed : ∀ t ∈ r.cluster.tasks, TaskHistory.Sound ⟨t.placements, none⟩ := by
    intro t ht
    rw [placements_of_mem_cluster ht]
    exact (hr.history t.key).closed r.endTick
  have hreferences := fun t ht => referenceFault?_eq_none_iff.mp (hfault t ht)
  exact {
    ordered := fun t ht p hp => by
      have hle := (hclosed t ht).ordered p hp
      exact ⟨hle, Nat.add_sub_cancel' hle⟩
    proper := fun t ht => (hclosed t ht).proper
    tasks := by
      have hkeys : r.cluster.tasks.map Task.key = r.tasks.keys := by
        rw [Replay.cluster, List.map_map]
        rfl
      rw [hkeys]
      exact r.tasks.nodup
    graph := fun t ht => (hreferences t ht).1
    graphs := hr.graphs
    pools := by
      have hids : r.cluster.pools.map WorkerPool.id = r.pools.keys := by
        rw [Replay.cluster, Keyed.values, Keyed.keys, List.map_map]
        refine List.map_congr_left fun entry hentry => ?_
        exact hr.pools entry.1 entry.2 (Keyed.get?_eq_some_iff.mpr hentry)
      rw [hids]
      exact r.pools.nodup
    listed := fun hcheck t ht p hp s hs =>
      provides_iff.mp ((hreferences t ht).2 hcheck p hp s hs) }

end Replay

/-- Whatever rows a replay was handed, its cluster is sound if it can be finished. Rows that were
refused are among them, with what they left behind. -/
theorem finish_sound {events : List Event} {check : Bool} {c : Cluster Double}
    (h : (Replay.start.processAll events).finish check = .ok c) : c.Sound check := by
  obtain ⟨rfl, hnone⟩ := Replay.finish_eq_ok_iff.mp h
  exact (Replay.sound_processAll events).cluster (List.findSome?_eq_none_iff.mp hnone)

/-- Refused rows of several kinds between others: an end of a task that does not run, a placement
that is dropped since it would end too early, a second placement of a task that runs, and an end of
the simulation before a task is placed that still runs then. -/
def unfittingTrace : List Event :=
  [⟨1, 0, "WORKER_POOL", ["pool0", "GPU", "2"]⟩,
   ⟨2, 0, "WORKER_POOL", ["pool1", "CPU", "-1"]⟩,
   ⟨3, 1, "TASK_GRAPH_RELEASE", ["0", "50", "g0", "1", "9"]⟩,
   ⟨4, 2, "TASK_FINISHED", ["g0", "t0"]⟩,
   ⟨5, 6, "TASK_PLACEMENT", ["g0", "t1", "GPU", "1"]⟩,
   ⟨6, 4, "TASK_FINISHED", ["g0", "t1"]⟩,
   ⟨7, 7, "TASK_PLACEMENT", ["g0", "t1", "GPU", "2"]⟩,
   ⟨8, 8, "TASK_PLACEMENT", ["g0", "t1", "CPU", "1"]⟩,
   ⟨9, 5, "SIMULATOR_END", []⟩,
   ⟨10, 9, "TASK_CANCEL", ["g1", "t0"]⟩]

theorem unfittingTrace_sound : ∃ c,
    (Replay.start.processAll unfittingTrace).finish true = .ok c ∧ c.Sound true ∧
      c.tasks.map (fun t => t.placements.map fun p => (p.start, p.completion)) =
        [[], [(7, 7)]] := by
  have hok : ((Replay.start.processAll unfittingTrace).finish true).toOption.any (fun c =>
      c.tasks.map (fun t => t.placements.map fun p => (p.start, p.completion)) =
        [[], [(7, 7)]]) = true := by
    decide +kernel
  obtain ⟨c, hc, hplacements⟩ := exists_of_any_toOption hok
  exact ⟨c, hc, finish_sound hc, of_decide_eq_true hplacements⟩

end ClusterTrace
