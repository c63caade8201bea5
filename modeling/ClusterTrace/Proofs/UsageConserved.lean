import ClusterTrace.Number.Exact
import ClusterTrace.Proofs.UsageLedger
import Mathlib.Algebra.BigOperators.Group.List.Basic
import Mathlib.Algebra.Order.Field.Rat
import Mathlib.Tactic.LinearCombination
import Mathlib.Tactic.Ring

/-!
# Usage is conserved

With exact numbers the loads of a series add up to what the placements hold at the ticks of the
window: each quantity times the part of the placement that lies in the window. No placement reaches
further than one tick past the window, so what is held at all ticks is counted but for the one tick
at which the window ends.
-/

namespace ClusterTrace

namespace Holding

/-- What is held over all ticks. -/
def amount (h : Holding ℚ) : ℚ := h.share.quantity * ((h.stop : ℚ) - h.start)

/-- What is held at the ticks before the end of the window. -/
def amountBefore (endTick : Nat) (h : Holding ℚ) : ℚ :=
  h.share.quantity * (((min h.stop endTick : Nat) : ℚ) - (min h.start endTick : Nat))

/-- The share is held at the tick. -/
def covers {α : Type} (h : Holding α) (tick : Nat) : Bool := h.start ≤ tick && tick < h.stop

end Holding

/-- The uses of a resource. -/
def Cluster.usesOf {α : Type} (c : Cluster α) (resource : String) : List (Holding α) :=
  c.holdings.filter fun h => h.share.name = resource

/-- Of some uses all is counted but what they hold at the tick at which the window ends. -/
structure Conserved (endTick : Nat) (uses : List (Holding ℚ)) (counted : ℚ) : Prop where
  /-- Each use counts with its ticks before the end of the window. -/
  inWindow : counted = (uses.map (Holding.amountBefore endTick)).sum
  /-- Those are all its ticks but the one at the end of the window, if it is among them. -/
  allButOneTick : counted = (uses.map Holding.amount).sum -
    ((uses.filter fun h => h.covers endTick).map fun h => h.share.quantity).sum

/-! ## One use -/

/-- A quantity held from one tick to another, added up over the ticks of a window, counts each tick
of the interval that lies in the window once. -/
theorem sum_ticks (q : ℚ) {start stop : Nat} (hle : start ≤ stop) (window : Nat) :
    ((List.range window).map fun tick => if start ≤ tick ∧ tick < stop then q else 0).sum =
      q * (((min stop window : Nat) : ℚ) - (min start window : Nat)) := by
  induction window with
  | zero => simp
  | succ window ih =>
    rw [List.sum_range_succ, ih]
    by_cases hin : start ≤ window ∧ window < stop
    · have hstop : min stop (window + 1) = min stop window + 1 := by omega
      have hstart : min start (window + 1) = min start window := by omega
      rw [if_pos hin, hstop, hstart]
      push_cast
      ring
    · have hsame : min stop (window + 1) + min start window =
          min start (window + 1) + min stop window := by omega
      have hcast : ((min stop (window + 1) : Nat) : ℚ) + (min start window : Nat) =
          (min start (window + 1) : Nat) + (min stop window : Nat) := by exact_mod_cast hsame
      rw [if_neg hin, add_zero]
      linear_combination (-q) * hcast

/-- A use holds at the end of the window if it is not over by then; it does not reach further. -/
theorem Holding.amountBefore_eq {h : Holding ℚ} {endTick : Nat} (hle : h.start ≤ h.stop)
    (hend : h.start < h.stop → h.stop ≤ endTick + 1) :
    h.amountBefore endTick = h.amount - if h.covers endTick then h.share.quantity else 0 := by
  have hcovers : h.covers endTick = true ↔ h.start ≤ endTick ∧ endTick < h.stop := by
    simp [Holding.covers]
  unfold amountBefore amount
  by_cases hin : h.start ≤ endTick ∧ endTick < h.stop
  · have hstop : h.stop = endTick + 1 := by have := hend (by omega); omega
    rw [if_pos (hcovers.mpr hin), Nat.min_eq_left hin.1, Nat.min_eq_right (by omega), hstop]
    push_cast
    ring
  · have hsame : min h.stop endTick + h.start = min h.start endTick + h.stop := by
      by_cases hempty : h.start = h.stop
      · rw [hempty]
      · have := hend (by omega)
        omega
    have hcast : ((min h.stop endTick : Nat) : ℚ) + h.start =
        (min h.start endTick : Nat) + h.stop := by exact_mod_cast hsame
    rw [if_neg (mt hcovers.mp hin)]
    linear_combination h.share.quantity * hcast

/-! ## All uses -/

/-- Added up over the window tick by tick or use by use, the sum is the same. The induction is on
the uses: one more adds its quantity at each tick at which it holds. -/
theorem sum_heldAt {hs : List (Holding ℚ)} (hle : ∀ h ∈ hs, h.start ≤ h.stop) (resource : String)
    (good : Bool) (window : Nat) :
    ((List.range window).map (heldAt hs resource good)).sum =
      ((hs.filter fun h => h.share.name = resource ∧ h.good = good).map
        (Holding.amountBefore window)).sum := by
  induction hs using List.reverseRecOn with
  | nil =>
    have hzero : (List.range window).map (heldAt ([] : List (Holding ℚ)) resource good) =
        (List.range window).map fun _ => (0 : ℚ) := rfl
    rw [hzero, List.sum_map_zero]
    rfl
  | append_singleton hs h ih =>
    have ih := ih fun g hg => hle g (List.mem_append_left _ hg)
    by_cases hwhich : h.share.name = resource ∧ h.good = good
    · have hstep : ∀ tick, heldAt (hs ++ [h]) resource good tick = heldAt hs resource good tick +
          if h.start ≤ tick ∧ tick < h.stop then h.share.quantity else 0 := by
        intro tick
        rw [heldAt_concat]
        by_cases hin : h.start ≤ tick ∧ tick < h.stop
        · rw [if_pos ⟨hwhich.1, hwhich.2, hin⟩, if_pos hin]
        · rw [if_neg (fun hh => hin hh.2.2), if_neg hin, add_zero]
      rw [List.map_congr_left fun tick _ => hstep tick, List.sum_map_add, ih,
        sum_ticks _ (hle h (by simp))]
      simp [List.filter_append, hwhich, Holding.amountBefore]
    · have hstep : ∀ tick,
          heldAt (hs ++ [h]) resource good tick = heldAt hs resource good tick := by
        intro tick
        rw [heldAt_concat, if_neg (fun hh => hwhich ⟨hh.1, hh.2.1⟩)]
      rw [List.map_congr_left fun tick _ => hstep tick, ih]
      simp [List.filter_append, hwhich]

/-- What is counted use by use is all but the one tick. -/
theorem conserved_of_sum {endTick : Nat} {uses : List (Holding ℚ)} {counted : ℚ}
    (hle : ∀ h ∈ uses, h.start ≤ h.stop)
    (hend : ∀ h ∈ uses, h.start < h.stop → h.stop ≤ endTick + 1)
    (hsum : counted = (uses.map (Holding.amountBefore endTick)).sum) :
    Conserved endTick uses counted := by
  refine ⟨hsum, ?_⟩
  have hsplit : uses.map Holding.amount = uses.map fun h =>
      h.amountBefore endTick + if h.covers endTick then h.share.quantity else 0 := by
    refine List.map_congr_left fun h hh => ?_
    rw [Holding.amountBefore_eq (hle h hh) (hend h hh)]
    ring
  rw [hsum, hsplit, List.sum_map_add, List.sum_map_ite, List.sum_map_zero, add_zero]
  simp

/-! ## The account -/

/-- No use reaches further than one tick past the window. -/
theorem stop_le_lastHeldTick {α : Type} {c : Cluster α} {h : Holding α} (hh : h ∈ c.holdings)
    (hlt : h.start < h.stop) : h.stop ≤ c.lastHeldTick + 1 := by
  have := (foldl_max_le_iff.mp (Nat.le_refl c.lastHeldTick)).2 (h.stop - 1)
    (List.mem_map.mpr ⟨h, List.mem_filter.mpr ⟨hh, decide_eq_true hlt⟩, rfl⟩)
  omega

section Loads

variable {c : Cluster ℚ} {resource : String} {r : ResourceUsage ℚ}

/-- The good loads of a series are the uses of good graphs, the bad ones those of the others. -/
theorem sum_loads (hc : c.Ordered) (hr : r.PerTick c resource c.lastHeldTick) (good : Bool) :
    (r.series.toList.map fun load => if good then load.good else load.bad).sum =
      (((c.usesOf resource).filter fun u => u.good = good).map
        (Holding.amountBefore c.lastHeldTick)).sum := by
  have huses : (c.usesOf resource).filter (fun u => u.good = good) =
      c.holdings.filter fun u => u.share.name = resource ∧ u.good = good := by
    rw [Cluster.usesOf, List.filter_filter]
    refine List.filter_congr fun u _ => ?_
    rw [Bool.decide_and, Bool.and_comm]
  rw [huses, ← sum_heldAt fun u hu => (hc.holdings u hu).2, hr.series, List.map_map]
  cases good <;> rfl

/-- What is counted for good graphs and for the others is all. -/
theorem sum_all_loads (hc : c.Ordered) (hr : r.PerTick c resource c.lastHeldTick) :
    (r.series.toList.map fun load => load.good + load.bad).sum =
      ((c.usesOf resource).map (Holding.amountBefore c.lastHeldTick)).sum := by
  have hgood := sum_loads hc hr true
  have hbad := sum_loads hc hr false
  have hboth := List.sum_map_ite (fun u : Holding ℚ => u.good = true)
    (Holding.amountBefore c.lastHeldTick) (Holding.amountBefore c.lastHeldTick) (c.usesOf resource)
  simp only [ite_self, Bool.not_eq_true] at hboth
  rw [hboth, ← hgood, ← hbad]
  exact List.sum_map_add

end Loads

/-- In the account of a cluster with exact numbers every resource in use has its series, and the
loads of it add up to what its uses hold over all ticks but the one at the end of the window; the
good loads do so for the uses of good graphs, the bad ones for the others. -/
theorem usage_conserved (c : Cluster ℚ) (hc : c.Ordered) :
    (∀ h ∈ c.holdings, h.start < h.stop → h.stop ≤ c.usage.endTick + 1) ∧
      ∀ h ∈ c.holdings, ∃ r, c.usage.resources.get? h.share.name = some r ∧
        Conserved c.usage.endTick (c.usesOf h.share.name)
          (r.series.toList.map fun load => load.good + load.bad).sum ∧
        Conserved c.usage.endTick ((c.usesOf h.share.name).filter fun u => u.good = true)
          (r.series.toList.map Load.good).sum ∧
        Conserved c.usage.endTick ((c.usesOf h.share.name).filter fun u => u.good = false)
          (r.series.toList.map Load.bad).sum := by
  refine ⟨fun h hh => stop_le_lastHeldTick hh, fun h hh => ?_⟩
  have hget : c.usage.resources.get? h.share.name = some (.ofSeries (c.capacity h.share.name)
      c.lastHeldTick (usageSeries c.holdings c.lastHeldTick h.share.name)) :=
    (Keyed.get?_tabulate _ _ _).trans (if_pos (List.mem_map_of_mem hh))
  have hr := perTick_ofSeries c c.lastHeldTick h.share.name
  have hordered : ∀ u ∈ c.usesOf h.share.name, u.start ≤ u.stop := fun u hu =>
    (hc.holdings u (List.mem_filter.mp hu).1).2
  have hreach : ∀ u ∈ c.usesOf h.share.name, u.start < u.stop → u.stop ≤ c.lastHeldTick + 1 :=
    fun u hu => stop_le_lastHeldTick (List.mem_filter.mp hu).1
  refine ⟨_, hget, conserved_of_sum hordered hreach (sum_all_loads hc hr),
    conserved_of_sum ?_ ?_ (sum_loads hc hr true), conserved_of_sum ?_ ?_ (sum_loads hc hr false)⟩
  all_goals intro u hu
  · exact hordered u (List.mem_filter.mp hu).1
  · exact hreach u (List.mem_filter.mp hu).1
  · exact hordered u (List.mem_filter.mp hu).1
  · exact hreach u (List.mem_filter.mp hu).1

/-- A good task and a bad one that still runs at the tick at which the window ends, and a placement
for no tick at all that lies behind the window. -/
def overhangingCluster : Cluster ℚ where
  pools := [⟨"pool0", [⟨"GPU", 2⟩]⟩]
  graphs := Keyed.ofList
    [("g0", ⟨"g0", 0, 10, 4, true, false, false⟩), ("g1", ⟨"g1", 0, 5, 8, true, true, false⟩)]
  tasks :=
    [⟨"t0", "g0", [⟨0, 4, [⟨"GPU", 1⟩]⟩, ⟨9, 9, [⟨"GPU", 3⟩]⟩]⟩,
     ⟨"t0", "g1", [⟨2, 8, [⟨"GPU", 1 / 2⟩]⟩]⟩]

theorem overhangingCluster_conserved :
    overhangingCluster.Ordered ∧ overhangingCluster.usage.endTick = 7 ∧
      ((overhangingCluster.usesOf "GPU").map Holding.amount).sum = 7 ∧
      ∃ r, overhangingCluster.usage.resources.get? "GPU" = some r ∧
        Conserved 7 (overhangingCluster.usesOf "GPU")
          (r.series.toList.map fun load => load.good + load.bad).sum := by
  have hordered : overhangingCluster.Ordered := by unfold Cluster.Ordered; decide
  have hend : overhangingCluster.usage.endTick = 7 := by decide
  have huse : (⟨true, 0, 4, ⟨"GPU", 1⟩⟩ : Holding ℚ) ∈ overhangingCluster.holdings := by
    decide +kernel
  obtain ⟨r, hget, hall, -⟩ := (usage_conserved overhangingCluster hordered).2 _ huse
  rw [hend] at hall
  exact ⟨hordered, hend, by decide +kernel, r, hget, hall⟩

end ClusterTrace
