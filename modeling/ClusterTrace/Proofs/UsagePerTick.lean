import ClusterTrace.Proofs.Keyed
import ClusterTrace.Usage.Ledger

/-!
# The account of resource usage, tick by tick

The account goes through the placements one by one and adds each of its shares to a stretch of a
series. Here it is shown to be what one gets tick by tick (`ClusterUsage.PerTick`): at every tick of
the window the load of a resource is the sum of the quantities held at that tick, in the order of
tasks, placements and shares. The order of the additions is the same, so nothing is asked of the
numbers. The ledger in which the account is kept never fails.
-/

namespace ClusterTrace

variable {α : Type}

/-- No placement of the cluster ends before it begins. -/
def Cluster.Ordered (c : Cluster α) : Prop :=
  ∀ t ∈ c.tasks, ∀ p ∈ t.placements, p.start ≤ p.completion

variable [Scalar α]

/-- The quantities of a resource that are held at a tick, for good graphs or for all others, added
up from zero one after the other. -/
def heldAt (holdings : List (Holding α)) (resource : String) (good : Bool) (tick : Nat) : α :=
  (holdings.filter fun h =>
    h.share.name = resource ∧ h.good = good ∧ h.start ≤ tick ∧ tick < h.stop).foldl
    (fun total h => total + h.share.quantity) Scalar.zero

/-- What the account of a resource says, read tick by tick. -/
structure ResourceUsage.PerTick (c : Cluster α) (resource : String) (window : Nat)
    (r : ResourceUsage α) : Prop where
  /-- The capacity is that of all pools. -/
  capacity : r.capacity = c.capacity resource
  /-- The series has one load for each tick of the window: what is held at that tick. -/
  series : r.series.toList = (List.range window).map fun tick =>
    ⟨heldAt c.holdings resource true tick, heldAt c.holdings resource false tick⟩
  /-- A capacity of zero comes before an empty window as the reason for having no ratio. -/
  degenerate : r.degenerate =
    if Scalar.isZero (c.capacity resource) then some .zeroCapacity
    else if window = 0 then some .emptyWindow else none
  /-- Without a ratio both are zero. -/
  noRatio : r.degenerate ≠ none → r.effective = Scalar.zero ∧ r.total = Scalar.zero
  /-- The good use: the loads added up from the first tick on, over what was installed. -/
  effective : r.degenerate = none → r.effective =
    ((List.range window).map (heldAt c.holdings resource true)).foldl (· + ·) Scalar.zero /
      (c.capacity resource * Scalar.ofNat window)
  /-- All use, likewise. -/
  total : r.degenerate = none → r.total =
    ((List.range window).map fun tick =>
      heldAt c.holdings resource true tick + heldAt c.holdings resource false tick).foldl
        (· + ·) Scalar.zero /
      (c.capacity resource * Scalar.ofNat window)

/-- What the account of a cluster says, read tick by tick. -/
structure ClusterUsage.PerTick (c : Cluster α) (u : ClusterUsage α) : Prop where
  /-- The window ends with the last tick at which a placement holds anything. -/
  endTick : u.endTick =
    ((c.placements.filter Placement.isHeld).map fun p => p.completion - 1).max?.getD 0
  /-- There is one account for each resource that a placement names, in the order of first use. -/
  names : u.resources.keys =
    (c.placements.flatMap fun p => p.shares.map Share.name).eraseDups
  /-- Each of them is right. -/
  resource : ∀ e ∈ u.resources.entries, e.2.PerTick c e.1 u.endTick

/-! ## Entering a holding -/

omit [Scalar α] in
@[simp] theorem size_modifyTicks (f : Load α → Load α) (series : Array (Load α))
    (tick count : Nat) :
    (modifyTicks f series tick count).size = series.size := by
  induction count generalizing series tick with
  | zero => rfl
  | succ count ih => rw [modifyTicks, ih, Array.size_modify]

omit [Scalar α] in
/-- The loads from a tick on are changed once each, and no other. -/
theorem getElem?_modifyTicks (f : Load α → Load α) (series : Array (Load α))
    (first count tick : Nat) :
    (modifyTicks f series first count)[tick]? =
      if first ≤ tick ∧ tick < first + count then series[tick]?.map f else series[tick]? := by
  induction count generalizing series first with
  | zero => rw [modifyTicks, if_neg (by omega)]
  | succ count ih =>
    rw [modifyTicks, ih, Array.getElem?_modify]
    by_cases h : first = tick
    · rw [if_neg (by omega), if_pos h, if_pos (by omega)]
    · by_cases hin : first + 1 ≤ tick ∧ tick < first + 1 + count
      · rw [if_pos hin, if_neg h, if_pos (by omega)]
      · rw [if_neg hin, if_neg h, if_neg (by omega)]

theorem size_charge (h : Holding α) (window : Nat) (series : Array (Load α)) :
    (h.charge window series).size = series.size := by
  simp [Holding.charge]

/-- A holding adds its quantity at those of its ticks that lie in the window. -/
theorem getElem?_charge (h : Holding α) {window tick : Nat} (series : Array (Load α))
    (htick : tick < window) :
    (h.charge window series)[tick]? =
      if h.start ≤ tick ∧ tick < h.stop then
        series[tick]?.map fun load => load.add h.good h.share.quantity
      else series[tick]? := by
  have hiff : (min h.start window ≤ tick ∧
      tick < min h.start window + (min h.stop window - min h.start window)) ↔
      (h.start ≤ tick ∧ tick < h.stop) := by omega
  simp only [Holding.charge, getElem?_modifyTicks, hiff]

theorem usageSeries_concat (hs : List (Holding α)) (h : Holding α) (window : Nat)
    (resource : String) :
    usageSeries (hs ++ [h]) window resource =
      if h.share.name = resource then h.charge window (usageSeries hs window resource)
      else usageSeries hs window resource := by
  unfold usageSeries
  rw [List.filter_append, List.foldl_append]
  by_cases hr : h.share.name = resource
  · simp [hr]
  · simp [hr]

theorem heldAt_concat (hs : List (Holding α)) (h : Holding α) (resource : String) (good : Bool)
    (tick : Nat) :
    heldAt (hs ++ [h]) resource good tick =
      if h.share.name = resource ∧ h.good = good ∧ h.start ≤ tick ∧ tick < h.stop then
        heldAt hs resource good tick + h.share.quantity
      else heldAt hs resource good tick := by
  unfold heldAt
  rw [List.filter_append, List.foldl_append]
  split
  · rename_i hin
    rw [List.filter_cons_of_pos (by simpa using hin)]
    rfl
  · rename_i hout
    rw [List.filter_cons_of_neg (by rw [decide_eq_true_eq]; exact hout)]
    rfl

/-! ## The series of a resource -/

theorem size_usageSeries (hs : List (Holding α)) (window : Nat) (resource : String) :
    (usageSeries hs window resource).size = window := by
  induction hs using List.reverseRecOn with
  | nil => simp [usageSeries]
  | append_singleton hs h ih =>
    rw [usageSeries_concat]
    split
    · rw [size_charge, ih]
    · exact ih

/-- The load at a tick of the window is what is held at that tick: the additions made so far, in
their order. -/
theorem getElem?_usageSeries (hs : List (Holding α)) {window tick : Nat} (htick : tick < window)
    (resource : String) :
    (usageSeries hs window resource)[tick]? =
      some ⟨heldAt hs resource true tick, heldAt hs resource false tick⟩ := by
  induction hs using List.reverseRecOn with
  | nil => simp [usageSeries, heldAt, Load.none, htick]
  | append_singleton hs h ih =>
    rw [usageSeries_concat, heldAt_concat, heldAt_concat]
    by_cases hr : h.share.name = resource
    · rw [if_pos hr, getElem?_charge h _ htick, ih]
      by_cases hin : h.start ≤ tick ∧ tick < h.stop
      · cases hg : h.good <;> simp [hr, hin, Load.add]
      · simp [hr, hin]
    · simp [hr, ih]

theorem toList_usageSeries (hs : List (Holding α)) (window : Nat) (resource : String) :
    (usageSeries hs window resource).toList = (List.range window).map fun tick =>
      ⟨heldAt hs resource true tick, heldAt hs resource false tick⟩ := by
  refine List.ext_getElem? fun tick => ?_
  rw [Array.getElem?_toList, List.getElem?_map]
  by_cases htick : tick < window
  · rw [getElem?_usageSeries hs htick, List.getElem?_range htick]
    rfl
  · rw [Array.getElem?_eq_none (by rw [size_usageSeries]; omega),
      List.getElem?_eq_none (by rw [List.length_range]; omega)]
    rfl

theorem goodTotal_usageSeries (hs : List (Holding α)) (window : Nat) (resource : String) :
    goodTotal (usageSeries hs window resource) =
      ((List.range window).map (heldAt hs resource true)).foldl (· + ·) Scalar.zero := by
  rw [goodTotal, ← Array.foldl_toList, toList_usageSeries, List.foldl_map, List.foldl_map]

theorem fullTotal_usageSeries (hs : List (Holding α)) (window : Nat) (resource : String) :
    fullTotal (usageSeries hs window resource) =
      ((List.range window).map fun tick =>
        heldAt hs resource true tick + heldAt hs resource false tick).foldl
          (· + ·) Scalar.zero := by
  rw [fullTotal, ← Array.foldl_toList, toList_usageSeries, List.foldl_map, List.foldl_map]

/-- The account of a series of loads that are right at every tick. -/
theorem perTick_ofSeries (c : Cluster α) (window : Nat) (resource : String) :
    (ResourceUsage.ofSeries (c.capacity resource) window
      (usageSeries c.holdings window resource)).PerTick c resource window := by
  have hseries := toList_usageSeries c.holdings window resource
  have hgood := goodTotal_usageSeries c.holdings window resource
  have hfull := fullTotal_usageSeries c.holdings window resource
  have hdeg : degeneracy? (c.capacity resource) window =
      if Scalar.isZero (c.capacity resource) then some .zeroCapacity
      else if window = 0 then some .emptyWindow else none := rfl
  unfold ResourceUsage.ofSeries
  cases hd : degeneracy? (c.capacity resource) window with
  | some reason =>
    rw [hd] at hdeg
    refine ⟨rfl, hseries, hdeg, fun _ => ⟨rfl, rfl⟩, fun h => ?_, fun h => ?_⟩
    · cases h
    · cases h
  | none =>
    rw [hd] at hdeg
    refine ⟨rfl, hseries, hdeg, fun h => absurd rfl h, fun _ => ?_, fun _ => ?_⟩
    · rw [← hgood]
    · rw [← hfull]

/-! ## The window -/

omit [Scalar α] in
theorem mem_holdings {c : Cluster α} {h : Holding α} :
    h ∈ c.holdings ↔ ∃ t ∈ c.tasks, ∃ p ∈ t.placements, ∃ s ∈ p.shares,
      ⟨c.isGoodGraph t.graph, p.start, p.completion, s⟩ = h := by
  simp [Cluster.holdings]

omit [Scalar α] in
theorem mem_placements {c : Cluster α} {p : Placement α} :
    p ∈ c.placements ↔ ∃ t ∈ c.tasks, p ∈ t.placements := by
  simp [Cluster.placements]

theorem foldl_max_le_iff {ns : List Nat} {m n : Nat} :
    ns.foldl max m ≤ n ↔ m ≤ n ∧ ∀ k ∈ ns, k ≤ n := by
  induction ns generalizing m with
  | nil => simp
  | cons k ns ih =>
    rw [List.foldl_cons, ih, List.forall_mem_cons, Nat.max_le, and_assoc]

theorem foldl_max_eq_max? (ns : List Nat) : ns.foldl max 0 = ns.max?.getD 0 := by
  cases ns with
  | nil => rfl
  | cons n ns => rw [List.foldl_cons, Nat.zero_max]; rfl

omit [Scalar α] in
/-- The window may be taken from the holdings or from the placements that hold something. A
placement without shares, or one that ends as it starts, holds nothing. -/
theorem lastHeldTick_eq (c : Cluster α) :
    c.lastHeldTick =
      ((c.placements.filter Placement.isHeld).map fun p => p.completion - 1).max?.getD 0 := by
  rw [← foldl_max_eq_max?]
  refine Nat.le_antisymm (foldl_max_le_iff.mpr ⟨Nat.zero_le _, ?_⟩)
    (foldl_max_le_iff.mpr ⟨Nat.zero_le _, ?_⟩)
  · intro n hn
    obtain ⟨h, hh, rfl⟩ := List.mem_map.mp hn
    obtain ⟨hmem, hlt⟩ := List.mem_filter.mp hh
    obtain ⟨t, ht, p, hp, s, hs, rfl⟩ := mem_holdings.mp hmem
    have hheld : p.isHeld = true := by
      have : p.shares ≠ [] := List.ne_nil_of_mem hs
      simpa [Placement.isHeld, this] using hlt
    exact (foldl_max_le_iff.mp (Nat.le_refl _)).2 _ (List.mem_map.mpr
      ⟨p, List.mem_filter.mpr ⟨mem_placements.mpr ⟨t, ht, hp⟩, hheld⟩, rfl⟩)
  · intro n hn
    obtain ⟨p, hp, rfl⟩ := List.mem_map.mp hn
    obtain ⟨hmem, hheld⟩ := List.mem_filter.mp hp
    obtain ⟨t, ht, hpt⟩ := mem_placements.mp hmem
    simp only [Placement.isHeld, Bool.and_eq_true, decide_eq_true_eq, Bool.not_eq_true',
      List.isEmpty_eq_false_iff] at hheld
    obtain ⟨s, hs⟩ := List.exists_mem_of_ne_nil _ hheld.2
    exact (foldl_max_le_iff.mp (Nat.le_refl _)).2 _ (List.mem_map.mpr
      ⟨_, List.mem_filter.mpr ⟨mem_holdings.mpr ⟨t, ht, p, hpt, s, hs, rfl⟩,
        decide_eq_true hheld.1⟩, rfl⟩)

omit [Scalar α] in
/-- A placement that holds something does not end at tick zero. -/
theorem window?_eq (c : Cluster α) : c.window? = some c.lastHeldTick := by
  have hall : ∀ ps : List (Placement α), (∀ p ∈ ps, p.isHeld = true) →
      (ps.mapM fun p => tickBefore? p.completion) = some (ps.map fun p => p.completion - 1) := by
    intro ps hps
    induction ps with
    | nil => rfl
    | cons p ps ih =>
      have hp : p.completion ≠ 0 := by
        have := hps p List.mem_cons_self
        simp only [Placement.isHeld, Bool.and_eq_true, decide_eq_true_eq] at this
        omega
      obtain ⟨tick, htick⟩ := Nat.exists_eq_succ_of_ne_zero hp
      rw [List.mapM_cons, ih fun q hq => hps q (List.mem_cons_of_mem _ hq), List.map_cons, htick]
      rfl
  rw [Cluster.window?, hall _ fun p hp => (List.mem_filter.mp hp).2, lastHeldTick_eq]
  rfl

omit [Scalar α] in
theorem map_name_holdings (c : Cluster α) :
    (c.holdings.map fun h => h.share.name) =
      c.placements.flatMap fun p => p.shares.map Share.name := by
  simp [Cluster.holdings, Cluster.placements, List.map_flatMap, List.flatMap_assoc,
    Function.comp_def]

/-- The account of a cluster is right at every tick. -/
theorem perTick_usage (c : Cluster α) : c.usage.PerTick c where
  endTick := lastHeldTick_eq c
  names := by rw [← map_name_holdings]; exact Keyed.keys_tabulate _ _
  resource := by
    intro e he
    rw [(Keyed.mem_entries_tabulate he).2]
    exact perTick_ofSeries c c.lastHeldTick e.1

end ClusterTrace
