import ClusterTrace.Proofs.SignedZero
import ClusterTrace.Proofs.UsageConserved

/-!
# The ratios from the sums of a series

A ratio of an account is added up from the positive zero, the sum of a series from the neutral one.
The two agree to the last bit: every load is itself added up from the positive zero, so none of them
is the negative zero, and a window that has a tick has a load to start from. With exact numbers all
use is the sum of the good and of the bad use.
-/

namespace ClusterTrace

/-- What an account says of a resource, in terms of the sums of its series: the good ratio, and when
there is none. -/
structure ResourceUsage.FromSums {α : Type} [Scalar α] (c : Cluster α) (resource : String)
    (endTick : Nat) (r : ResourceUsage α) : Prop where
  capacity : r.capacity = c.capacity resource
  effective : r.degenerate = none →
    r.effective = r.goodUsage / (r.capacity * Scalar.ofNat endTick)
  /-- A capacity of zero is the reason whatever the window is. -/
  zeroCapacity : r.degenerate = some .zeroCapacity ↔ Scalar.isZero r.capacity = true
  emptyWindow : r.degenerate = some .emptyWindow ↔
    Scalar.isZero r.capacity = false ∧ endTick = 0
  noRatio : r.degenerate ≠ none → r.effective = Scalar.zero ∧ r.total = Scalar.zero

section Generic

variable {α : Type} [Scalar α] {c : Cluster α} {resource : String} {window : Nat}
  {r : ResourceUsage α}

theorem ResourceUsage.PerTick.window_ne_zero (hr : r.PerTick c resource window)
    (hratio : r.degenerate = none) : window ≠ 0 := by
  rintro rfl
  rw [hr.degenerate] at hratio
  split at hratio <;> cases hratio

/-- The ratio agrees with the sum of the series if it does not matter which zero the good loads are
added up from. -/
theorem ResourceUsage.PerTick.fromSums (hr : r.PerTick c resource window)
    (hstart : window ≠ 0 → Scalar.sum ((List.range window).map (heldAt c.holdings resource true)) =
      ((List.range window).map (heldAt c.holdings resource true)).foldl (· + ·) Scalar.zero) :
    r.FromSums c resource window := by
  have hgood : r.goodUsage =
      Scalar.sum ((List.range window).map (heldAt c.holdings resource true)) := by
    rw [goodUsage, hr.series, List.map_map]
    rfl
  refine ⟨hr.capacity, fun hratio => ?_, ?_, ?_, hr.noRatio⟩
  · rw [hr.effective hratio, hgood, hstart (hr.window_ne_zero hratio), hr.capacity]
  all_goals rw [hr.degenerate, hr.capacity]
  · split_ifs <;> simp_all
  · split_ifs <;> simp_all

end Generic

/-! ## Doubles -/

/-- No load is the negative zero. -/
theorem heldAt_ne_negZero (hs : List (Holding Double)) (resource : String) (good : Bool)
    (tick : Nat) : heldAt hs resource good tick ≠ Double.negZero :=
  Double.foldl_add_ne_negZero _ _ (by decide)

theorem fromSums_of_double {c : Cluster Double} {resource : String} {window : Nat}
    {r : ResourceUsage Double} (hr : r.PerTick c resource window) :
    r.FromSums c resource window := by
  refine hr.fromSums fun hwindow => Double.foldl_add_negZero ?_
  exact ⟨_, List.mem_map_of_mem (List.mem_range.mpr (Nat.pos_of_ne_zero hwindow)),
    heldAt_ne_negZero _ _ _ _⟩

theorem Double.isZero_iff {x : Double} : x.isZero = true ↔ x = zero ∨ x = negZero := by
  rw [isZero, decide_eq_true_iff]
  constructor
  · intro h
    rw [eq_zeroOf_of_code h]
    cases x.negative with
    | false => exact .inl rfl
    | true => exact .inr rfl
  · rintro (rfl | rfl) <;> rfl

/-! ## Exact numbers -/

theorem fromSums_of_exact {c : Cluster ℚ} {resource : String} {window : Nat} {r : ResourceUsage ℚ}
    (hr : r.PerTick c resource window) : r.FromSums c resource window :=
  hr.fromSums fun _ => rfl

/-- All use is the good and the bad use together. -/
theorem total_of_exact {c : Cluster ℚ} {resource : String} {window : Nat} {r : ResourceUsage ℚ}
    (hr : r.PerTick c resource window) (hratio : r.degenerate = none) :
    r.total = (r.goodUsage + r.badUsage) / (r.capacity * Scalar.ofNat window) := by
  have hgood : r.goodUsage = ((List.range window).map (heldAt c.holdings resource true)).sum := by
    rw [ResourceUsage.goodUsage, hr.series, List.map_map, Scalar.sum_exact]
    rfl
  have hbad : r.badUsage = ((List.range window).map (heldAt c.holdings resource false)).sum := by
    rw [ResourceUsage.badUsage, hr.series, List.map_map, Scalar.sum_exact]
    rfl
  rw [hr.total hratio, hgood, hbad, ← List.sum_map_add, hr.capacity]
  exact congrArg (· / _) (Scalar.sum_exact _)

/-- In the account of a cluster the good ratio of a resource is the sum of its good loads over what
is installed, the same double whichever zero the sum starts from, and with exact numbers the full
ratio is the sum of both. A resource has no ratio exactly if it has no capacity, whatever the sign
of that zero, or if the window is empty; then both ratios are the positive zero. -/
theorem ratios_fromSums (c : Cluster Double) (hc : c.Ordered) (d : Cluster ℚ) (hd : d.Ordered) :
    (∃ u, c.ledger? = some u ∧ ∀ e ∈ u.resources.entries, e.2.FromSums c e.1 u.endTick ∧
      (e.2.degenerate = some .zeroCapacity ↔
        e.2.capacity = Double.zero ∨ e.2.capacity = Double.negZero)) ∧
    ∃ u, d.ledger? = some u ∧ ∀ e ∈ u.resources.entries, e.2.FromSums d e.1 u.endTick ∧
      (e.2.degenerate = none →
        e.2.total = (e.2.goodUsage + e.2.badUsage) / (e.2.capacity * (u.endTick : ℚ))) := by
  constructor
  · refine ⟨_, ledger?_eq_usage hc, fun e he => ?_⟩
    have hfrom := fromSums_of_double ((perTick_usage c).resource e he)
    exact ⟨hfrom, hfrom.zeroCapacity.trans Double.isZero_iff⟩
  · refine ⟨_, ledger?_eq_usage hd, fun e he => ?_⟩
    have hr := (perTick_usage d).resource e he
    refine ⟨fromSums_of_exact hr, fun hratio => ?_⟩
    rw [total_of_exact hr hratio, Scalar.ofNat_exact]

/-- A good task that uses a negative zero of a resource and then a negative amount, and a resource
whose capacity is the negative zero. -/
def signedCluster : Cluster Double where
  pools := [⟨"pool0", [⟨"GPU", Double.ofNat 2⟩, ⟨"TPU", Double.negZero⟩]⟩]
  graphs := Keyed.ofList [("g0", ⟨"g0", 0, 10, 4, true, false, false⟩)]
  tasks :=
    [⟨"t0", "g0",
        [⟨0, 2, [⟨"GPU", Double.negZero⟩, ⟨"TPU", Double.ofNat 1⟩]⟩,
         ⟨2, 4, [⟨"GPU", (Double.ofNat 1).neg⟩]⟩]⟩]

theorem signedCluster_fromSums : signedCluster.Ordered ∧ overhangingCluster.Ordered ∧
    (∃ r, signedCluster.usage.resources.get? "GPU" = some r ∧ r.degenerate = none ∧
      r.effective = r.goodUsage / (r.capacity * Double.ofNat 3)) ∧
    (∃ r, signedCluster.usage.resources.get? "TPU" = some r ∧ r.capacity = Double.negZero ∧
      r.degenerate = some .zeroCapacity ∧ r.effective = Double.zero) ∧
    ∃ r, overhangingCluster.usage.resources.get? "GPU" = some r ∧ r.degenerate = none ∧
      r.total = (r.goodUsage + r.badUsage) / (r.capacity * 7) := by
  have hc : signedCluster.Ordered := by unfold Cluster.Ordered; decide
  have hd : overhangingCluster.Ordered := by unfold Cluster.Ordered; decide
  obtain ⟨⟨u, hu, hdouble⟩, v, hv, hexact⟩ :=
    ratios_fromSums signedCluster hc overhangingCluster hd
  obtain rfl := Option.some.inj ((ledger?_eq_usage hc).symm.trans hu)
  obtain rfl := Option.some.inj ((ledger?_eq_usage hd).symm.trans hv)
  have hend : signedCluster.usage.endTick = 3 := by decide
  have hend' : overhangingCluster.usage.endTick = 7 := by decide
  have hgpu : (signedCluster.usage.resources.get? "GPU").any
      (fun r => r.degenerate = none) = true := by decide +kernel
  have htpu : (signedCluster.usage.resources.get? "TPU").any
      (fun r => r.capacity = Double.negZero) = true := by decide +kernel
  have hall : (overhangingCluster.usage.resources.get? "GPU").any
      (fun r => r.degenerate = none) = true := by decide +kernel
  obtain ⟨gpu, hgpu, hratio⟩ := (Option.any_eq_true ..).mp hgpu
  obtain ⟨tpu, htpu, hzero⟩ := (Option.any_eq_true ..).mp htpu
  obtain ⟨all, hall, hratio'⟩ := (Option.any_eq_true ..).mp hall
  obtain ⟨hgpuSums, -⟩ := hdouble _ (Keyed.get?_eq_some_iff.mp hgpu)
  obtain ⟨htpuSums, hdegenerate⟩ := hdouble _ (Keyed.get?_eq_some_iff.mp htpu)
  obtain ⟨-, htotal⟩ := hexact _ (Keyed.get?_eq_some_iff.mp hall)
  have hnone := hdegenerate.mpr (.inr (of_decide_eq_true hzero))
  rw [hend] at hgpuSums
  rw [hend'] at htotal
  refine ⟨hc, hd, ⟨gpu, hgpu, of_decide_eq_true hratio,
    hgpuSums.effective (of_decide_eq_true hratio)⟩, ⟨tpu, htpu, of_decide_eq_true hzero, hnone,
    (htpuSums.noRatio ?_).1⟩, all, hall, of_decide_eq_true hratio',
    htotal (of_decide_eq_true hratio')⟩
  rw [hnone]
  decide

end ClusterTrace
