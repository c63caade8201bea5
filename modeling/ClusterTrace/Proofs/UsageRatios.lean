import ClusterTrace.Proofs.DoubleOrder
import ClusterTrace.Proofs.TaskPlacements
import ClusterTrace.Proofs.UsagePerTick

/-!
# The good use is at most all use

The two ratios of a resource come from two totals that are added up separately and rounded at every
step. In the cluster of a trace no quantity is negative, and then no rounding turns the order of the
totals around: at each tick all use is at least the good use, and so it stays when the next tick is
added and when both are divided by what is installed.
-/

namespace ClusterTrace

/-- No quantity in the cluster is negative. -/
structure Cluster.Nonneg (c : Cluster Double) : Prop where
  pools : ∀ pool ∈ c.pools, ∀ s ∈ pool.resources, s.quantity.Nonneg
  tasks : ∀ t ∈ c.tasks, ∀ p ∈ t.placements, ∀ s ∈ p.shares, s.quantity.Nonneg

/-- What is installed of a resource, added up over the window. -/
def Cluster.available {α : Type} [Scalar α] (c : Cluster α) (resource : String) : α :=
  c.capacity resource * Scalar.ofNat c.lastHeldTick

/-- The ratios of a resource are in order. -/
structure ResourceUsage.InOrder (c : Cluster Double) (resource : String)
    (r : ResourceUsage Double) : Prop where
  /-- If the totals are divided at all, then by a positive number. -/
  divisor : r.degenerate = none → r.effective = goodTotal r.series / c.available resource ∧
    r.total = fullTotal r.series / c.available resource ∧
    Double.zero.less (c.available resource) = true
  /-- The good use is at most all use, unless that and what is installed have both overflowed. -/
  ratios : ¬ ((fullTotal r.series).isInfinite = true ∧ (c.available resource).isInfinite = true) →
    Double.zero.AtMost r.effective ∧ r.effective.AtMost r.total

/-! ## The quantities of a trace -/

theorem ListsShares.nonneg {fields : List String} {shares : List (Share Double)}
    (h : ListsShares fields shares) : ∀ s ∈ shares, s.quantity.Nonneg := by
  intro s hs
  obtain ⟨hfinite, hless⟩ := h.quantity s hs
  exact Double.nonneg_of_not_less hfinite hless

theorem nonneg_of_fromRow {key : TaskKey} {endTick : Nat} {placings : List (Event × List Event)}
    {placements : List (Placement Double)}
    (h : List.Forall₂ (Placement.FromRow key endTick) placings placements) :
    ∀ p ∈ placements, ∀ s ∈ p.shares, s.quantity.Nonneg := by
  induction h with
  | nil => exact fun p hp => (List.not_mem_nil hp).elim
  | cons hrow _ ih =>
    intro p hp
    rcases List.mem_cons.mp hp with rfl | hp
    · exact hrow.shares.nonneg
    · exact ih p hp

/-- The rows of a trace that is replayed list no negative quantity. -/
theorem nonneg_of_replay {rows : List Event} {check : Bool} {c : Cluster Double}
    (h : replay rows check = .ok c) : c.Nonneg := by
  obtain ⟨r, hrun, hfinish⟩ := replay_eq_ok_iff.mp h
  obtain ⟨rfl, -⟩ := Replay.finish_eq_ok_iff.mp hfinish
  refine ⟨fun pool hpool => ?_, fun t ht p hp => ?_⟩
  · obtain ⟨⟨id, _⟩, hentry, rfl⟩ := List.mem_map.mp hpool
    obtain ⟨e, -, hread⟩ :=
      (Replay.reflects_of_run hrun).get?_pools_iff.mp (Keyed.get?_eq_some_iff.mpr hentry)
    exact (Event.pool_eq_ok_iff.mp hread).2.nonneg
  · exact nonneg_of_fromRow (Replay.placements_fromRow hrun ht) p hp

/-! ## The totals -/

/-- Adding up tick by tick keeps the good use below all use. -/
theorem goodTotal_le {loads : List (Load Double)}
    (hloads : ∀ load ∈ loads, load.good.Nonneg ∧ load.bad.Nonneg) {good full : Double}
    (hgood : good.Nonneg) (hfull : full.Nonneg) (hle : good.code ≤ full.code) :
    (loads.foldl (fun total load => total + load.good) good).code ≤
      (loads.foldl (fun total load => total + (load.good + load.bad)) full).code := by
  -- Both totals are followed at once: the order of the two so far is what the next tick keeps.
  induction loads generalizing good full with
  | nil => exact hle
  | cons load loads ih =>
    obtain ⟨hg, hb⟩ := hloads load List.mem_cons_self
    refine ih (fun load hl => hloads load (List.mem_cons_of_mem _ hl)) (hgood.add hg)
      (hfull.add (hg.add hb)) ?_
    exact Double.code_add_mono hgood hg hfull (hg.add hb) hle (Double.code_le_add hg hb)

section Cluster

variable {c : Cluster Double} (hc : c.Nonneg)

include hc

theorem nonneg_heldAt (resource : String) (good : Bool) (tick : Nat) :
    (heldAt c.holdings resource good tick).Nonneg := by
  refine Double.nonneg_foldl (fun h hh => ?_) (Double.nonneg_zeroOf false)
  obtain ⟨t, ht, p, hp, s, hs, rfl⟩ := mem_holdings.mp (List.mem_filter.mp hh).1
  exact hc.tasks t ht p hp s hs

theorem nonneg_capacity (resource : String) : (c.capacity resource).Nonneg := by
  refine Double.nonneg_sum fun pool hpool => ?_
  refine Double.nonneg_sum fun s hs => ?_
  exact hc.pools pool hpool s (List.mem_filter.mp hs).1

/-- What is installed over a window is positive if anything is installed and the window has a
tick. -/
theorem available_pos {resource : String} (hcapacity : Scalar.isZero (c.capacity resource) = false)
    (hwindow : c.lastHeldTick ≠ 0) :
    (c.available resource).Nonneg ∧ (c.available resource).code ≠ 0 := by
  have hne : (c.capacity resource).code ≠ 0 := of_decide_eq_false hcapacity
  obtain ⟨hnonneg, hle⟩ := Double.code_le_mul_ofNat (nonneg_capacity hc resource) hne hwindow
  exact ⟨hnonneg, fun hzero => hne (Nat.le_zero.mp (hzero ▸ hle))⟩

theorem inOrder_ofSeries (resource : String) :
    (ResourceUsage.ofSeries (c.capacity resource) c.lastHeldTick
      (usageSeries c.holdings c.lastHeldTick resource)).InOrder c resource := by
  have hloads : ∀ load ∈ (usageSeries c.holdings c.lastHeldTick resource).toList,
      load.good.Nonneg ∧ load.bad.Nonneg := by
    intro load hload
    rw [toList_usageSeries] at hload
    obtain ⟨tick, -, rfl⟩ := List.mem_map.mp hload
    exact ⟨nonneg_heldAt hc resource true tick, nonneg_heldAt hc resource false tick⟩
  generalize usageSeries c.holdings c.lastHeldTick resource = series at hloads
  have hzero : Double.zero.Nonneg := Double.nonneg_zeroOf false
  have hgood : (goodTotal series).Nonneg := by
    rw [goodTotal, ← Array.foldl_toList]
    exact Double.nonneg_foldl (fun load hl => (hloads load hl).1) hzero
  have hfull : (fullTotal series).Nonneg := by
    rw [fullTotal, ← Array.foldl_toList]
    exact Double.nonneg_foldl (fun load hl => (hloads load hl).1.add (hloads load hl).2) hzero
  have hle : (goodTotal series).code ≤ (fullTotal series).code := by
    rw [goodTotal, fullTotal, ← Array.foldl_toList, ← Array.foldl_toList]
    exact goodTotal_le hloads hzero hzero (Nat.le_refl _)
  unfold ResourceUsage.ofSeries
  cases hd : degeneracy? (c.capacity resource) c.lastHeldTick with
  | some reason =>
    refine ⟨fun h => ?_, fun _ => ⟨hzero.zero_atMost, hzero.zero_atMost⟩⟩
    cases h
  | none =>
    obtain ⟨hcapacity, hwindow⟩ : Scalar.isZero (c.capacity resource) = false ∧
        c.lastHeldTick ≠ 0 := by
      unfold degeneracy? at hd
      split at hd
      · cases hd
      · split at hd
        · cases hd
        · exact ⟨Bool.eq_false_iff.mpr ‹_›, ‹_›⟩
    obtain ⟨havailable, hne⟩ := available_pos hc hcapacity hwindow
    refine ⟨fun _ => ⟨rfl, rfl, havailable.zero_less hne⟩, fun hboth => ?_⟩
    have hboth' : ¬ ((goodTotal series).isInfinite = true ∧
        (c.available resource).isInfinite = true) := fun h =>
      hboth ⟨Double.isInfinite_of_le hfull hle h.1, h.2⟩
    have heffective := hgood.div havailable hne hboth'
    refine ⟨heffective.zero_atMost, (heffective.atMost_iff (hfull.div havailable hne hboth)).mpr ?_⟩
    exact Double.code_div_mono hgood hfull havailable hne hboth hle

end Cluster

/-- In the account of a trace that is replayed the good use of every resource is not negative and
not above all use, rounded as they are, and no total is divided by anything but a positive
number. -/
theorem ratios_inOrder {rows : List Event} {check : Bool} {c : Cluster Double}
    (h : replay rows check = .ok c) : ∀ e ∈ c.usage.resources.entries, e.2.InOrder c e.1 := by
  intro e he
  rw [(Keyed.mem_entries_tabulate he).2]
  exact inOrder_ofSeries (nonneg_of_replay h) e.1

/-- A good task and a bad one next to each other, with quantities that are no doubles. -/
def tenthsTrace : List Event :=
  [⟨1, 0, "WORKER_POOL", ["pool0", "GPU", "0.3"]⟩,
   ⟨2, 0, "TASK_GRAPH_RELEASE", ["0", "50", "g0", "1", "9"]⟩,
   ⟨3, 0, "TASK_GRAPH_RELEASE", ["0", "50", "g1", "1", "9"]⟩,
   ⟨4, 1, "TASK_PLACEMENT", ["g0", "t0", "GPU", "0.1"]⟩,
   ⟨5, 2, "TASK_PLACEMENT", ["g1", "t0", "GPU", "0.2"]⟩,
   ⟨6, 4, "TASK_FINISHED", ["g0", "t0"]⟩,
   ⟨7, 4, "TASK_GRAPH_FINISHED", ["g0"]⟩,
   ⟨8, 6, "TASK_FINISHED", ["g1", "t0"]⟩,
   ⟨9, 7, "SIMULATOR_END", []⟩]

theorem tenthsTrace_inOrder : ∃ c, replay tenthsTrace true = .ok c ∧
    c.usage.resources.keys = ["GPU"] ∧
    ∀ e ∈ c.usage.resources.entries, e.2.InOrder c e.1 ∧ e.2.degenerate = none := by
  have hok : (replay tenthsTrace true).toOption.any (fun c =>
      c.usage.resources.keys = ["GPU"] ∧
        ∀ e ∈ c.usage.resources.entries, e.2.degenerate = none) = true := by
    decide +kernel
  obtain ⟨c, hc, hgpu⟩ := exists_of_any_toOption hok
  obtain ⟨hkeys, hnone⟩ := of_decide_eq_true hgpu
  exact ⟨c, hc, hkeys, fun e he => ⟨ratios_inOrder hc e he, hnone e he⟩⟩

end ClusterTrace
