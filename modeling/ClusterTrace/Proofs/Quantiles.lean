import ClusterTrace.Proofs.SortedValues
import Mathlib.Algebra.Order.BigOperators.Group.List
import Mathlib.Data.List.Forall2
import Mathlib.Tactic.Linarith
import Mathlib.Tactic.Positivity
import Mathlib.Tactic.Ring

/-!
# Quantiles between the values of a sample

With exact numbers a quantile is read off at a position: at a rank it is the value there, and
between two ranks it lies on the line from the one value to the next (`ReadAt`). So it grows with
the position, and since sorting keeps the order rank by rank (`getElem_sorted_le`), it grows with
the values too. The quantiles of a summary are therefore in order, and all lie between the extremes.
-/

namespace ClusterTrace

/-- The value is read off sorted values at the position: at a rank, or on the line between the
values of two neighbouring ranks. -/
inductive ReadAt (ordered : List ℚ) : ℚ → ℚ → Prop
  | atRank {k : Nat} {x : ℚ} (value : ordered[k]? = some x) : ReadAt ordered k x
  | between {k : Nat} {x y part : ℚ} (below : ordered[k]? = some x)
      (above : ordered[k + 1]? = some y) (pos : 0 < part) (lt : part < 1) :
      ReadAt ordered (k + part) (x + (y - x) * part)

/-- In order of size the value comes at this place, counted from zero. -/
def IsAtRank (values : List ℚ) (k : Nat) (x : ℚ) : Prop :=
  ∃ ordered : List ℚ, ordered.Perm values ∧ ordered.Pairwise (· ≤ ·) ∧ ordered[k]? = some x

/-- The numbers of a summary are in order. -/
structure Summary.InOrder (m : Summary ℚ) : Prop where
  min_le_p25 : m.min ≤ m.p25
  p25_le_median : m.p25 ≤ m.median
  median_le_p75 : m.median ≤ m.p75
  p75_le_p95 : m.p75 ≤ m.p95
  p95_le_max : m.p95 ≤ m.max
  min_le_mean : m.min ≤ m.mean
  mean_le_max : m.mean ≤ m.max

/-- The quantiles of a sample lie between its values. -/
structure Sample.Interpolates (s : Sample ℚ) : Prop where
  ranks : ∀ q : ℚ, RanksWithin s.size q
  /-- The position goes from the first rank to the last as the part goes from zero to one. -/
  interpolated : ∀ q, ∃ x, s.quantile? q = some x ∧
    ReadAt (sorted s.values) (max 0 (min q 1) * (s.size - 1)) x
  clamped : ∀ q, s.quantile? q = s.quantile? (max 0 (min q 1))
  atZero : ∃ x, s.quantile? 0 = some x ∧ s.min? = some x ∧ IsLowest s.values x
  atOne : ∃ x, s.quantile? 1 = some x ∧ s.max? = some x ∧ IsHighest s.values x
  atRank : ∀ k < s.size, ∃ x, s.quantile? (k / (s.size - 1)) = some x ∧ IsAtRank s.values k x
  monotone : ∀ q q', q ≤ q' →
    ∃ x x', s.quantile? q = some x ∧ s.quantile? q' = some x' ∧ x ≤ x'
  /-- Greater values, one or more of them, do not lower a quantile. -/
  raised : ∀ t : Sample ℚ, List.Forall₂ (· ≤ ·) s.values t.values →
    ∀ q, ∃ x y, s.quantile? q = some x ∧ t.quantile? q = some y ∧ x ≤ y
  summary : ∃ m, Summary.of? s.values = some m ∧ m.Describes s ∧ m.InOrder

/-! ## Positions -/

section Position

variable {p part part' q q' : ℚ} {k k' n : Nat}

theorem floor_add_part (h0 : 0 ≤ part) (h1 : part < 1) : Scalar.floor ((k : ℚ) + part) = k := by
  have hfloor : ((k : ℚ) + part).floor = (k : ℤ) := by
    refine le_antisymm (Int.lt_add_one_iff.mp (Rat.floor_lt_iff.mpr ?_)) (Rat.le_floor_iff.mpr ?_)
    · push_cast
      linarith
    · push_cast
      linarith
  exact congrArg Int.toNat hfloor

theorem floor_natCast (k : Nat) : Scalar.floor (k : ℚ) = k := by
  have h := floor_add_part (k := k) (le_refl 0) zero_lt_one
  rwa [add_zero] at h

theorem eq_of_add_part_eq (h0 : 0 ≤ part) (h1 : part < 1) (h0' : 0 ≤ part') (h1' : part' < 1)
    (h : (k : ℚ) + part = k' + part') : k = k' := by
  rw [← floor_add_part (k := k) h0 h1, h, floor_add_part h0' h1']

theorem add_part_ne_natCast (h0 : 0 < part) (h1 : part < 1) : (k : ℚ) + part ≠ k' := by
  intro h
  rw [← add_zero (k' : ℚ)] at h
  obtain rfl := eq_of_add_part_eq h0.le h1 le_rfl zero_lt_one h
  exact h0.ne' (add_left_cancel h)

theorem ceil_add_part (h0 : 0 < part) (h1 : part ≤ 1) :
    Scalar.ceil ((k : ℚ) + part) = k + 1 := by
  have hceil : ((k : ℚ) + part).ceil = ((k + 1 : Nat) : ℤ) := by
    refine le_antisymm (Rat.ceil_le_iff.mpr ?_) ?_
    · push_cast
      linarith
    · have : (k : ℤ) < ((k : ℚ) + part).ceil := Rat.lt_ceil_iff.mpr (by push_cast; linarith)
      push_cast
      omega
  exact congrArg Int.toNat hceil

theorem ceil_natCast (k : Nat) : Scalar.ceil (k : ℚ) = k := by
  have hceil : (k : ℚ).ceil = (k : ℤ) := by
    refine le_antisymm (Rat.ceil_le_iff.mpr (by push_cast; exact le_refl _)) ?_
    have : (k : ℤ) - 1 < (k : ℚ).ceil := Rat.lt_ceil_iff.mpr (by push_cast; linarith)
    omega
  exact congrArg Int.toNat hceil

/-- A position is a rank or lies between two. -/
theorem exists_place (hp : 0 ≤ p) : (∃ k : Nat, p = k) ∨
    ∃ (k : Nat) (part : ℚ), p = k + part ∧ 0 < part ∧ part < 1 := by
  obtain ⟨k, hk⟩ := Int.eq_ofNat_of_zero_le (Rat.le_floor_iff.mpr (by push_cast; exact hp) :
    0 ≤ p.floor)
  have hlow := Rat.floor_le p
  have hhigh := Rat.lt_floor_add_one p
  rw [hk] at hlow hhigh
  push_cast at hlow hhigh
  rcases eq_or_lt_of_le hlow with heq | hlt
  · exact .inl ⟨k, heq.symm⟩
  · exact .inr ⟨k, p - k, by ring, by linarith, by linarith⟩

theorem clampUnit_eq (q : ℚ) : clampUnit q = max 0 (min q 1) := by
  have hone : (Scalar.ofNat 1 : ℚ) = 1 := Scalar.ofNat_exact 1
  have hless : ∀ x y : ℚ, Scalar.less x y = decide (x < y) := fun _ _ => rfl
  have hzero : (Scalar.zero : ℚ) = 0 := rfl
  unfold clampUnit
  simp only [hone, hless, hzero, decide_eq_true_eq]
  rcases lt_or_ge q 0 with hneg | hpos
  · rw [if_pos hneg, if_neg (by norm_num), min_eq_left (by linarith), max_eq_left hneg.le]
  · rw [if_neg (not_lt.mpr hpos)]
    rcases lt_or_ge 1 q with hbig | hsmall
    · rw [if_pos hbig, min_eq_right hbig.le, max_eq_right zero_le_one]
    · rw [if_neg (not_lt.mpr hsmall), min_eq_left hsmall, max_eq_right hpos]

theorem quantilePosition_eq (n : Nat) (q : ℚ) :
    quantilePosition n q = max 0 (min q 1) * ((n - 1 : Nat) : ℚ) := by
  rw [quantilePosition, clampUnit_eq, Scalar.ofNat_exact]

theorem quantilePosition_nonneg (n : Nat) (q : ℚ) : 0 ≤ quantilePosition n q := by
  rw [quantilePosition_eq]
  exact mul_nonneg (le_max_left ..) (Nat.cast_nonneg _)

theorem quantilePosition_le (n : Nat) (q : ℚ) : quantilePosition n q ≤ ((n - 1 : Nat) : ℚ) := by
  rw [quantilePosition_eq]
  exact mul_le_of_le_one_left (Nat.cast_nonneg _) (max_le zero_le_one (min_le_right ..))

theorem quantilePosition_mono (n : Nat) (h : q ≤ q') :
    quantilePosition n q ≤ quantilePosition n q' := by
  rw [quantilePosition_eq, quantilePosition_eq]
  exact mul_le_mul_of_nonneg_right (max_le_max_left 0 (min_le_min_right 1 h)) (Nat.cast_nonneg _)

theorem quantilePosition_zero (n : Nat) : quantilePosition n (0 : ℚ) = (0 : Nat) := by
  rw [quantilePosition_eq, min_eq_left zero_le_one, max_self, zero_mul, Nat.cast_zero]

theorem quantilePosition_one (n : Nat) : quantilePosition n (1 : ℚ) = (n - 1 : Nat) := by
  rw [quantilePosition_eq, min_self, max_eq_right zero_le_one, one_mul]

/-- One value has one rank, and then the part is zero by zero. -/
theorem quantilePosition_rank (hk : k < n) : quantilePosition n ((k : ℚ) / (n - 1)) = k := by
  have hcast : (n : ℚ) - 1 = (n - 1 : Nat) := by rw [Nat.cast_pred (by omega)]
  have hle : (k : ℚ) ≤ (n - 1 : Nat) := Nat.cast_le.mpr (by omega)
  rw [quantilePosition_eq, hcast, min_eq_left (div_le_one_of_le₀ hle (Nat.cast_nonneg _)),
    max_eq_right (by positivity)]
  refine div_mul_cancel_of_imp fun hzero => ?_
  rw [Nat.cast_eq_zero] at hzero ⊢
  omega

theorem ranksWithin_exact (hn : n ≠ 0) (q : ℚ) : RanksWithin n q := by
  have hnonneg := quantilePosition_nonneg n q
  have hle := quantilePosition_le n q
  unfold RanksWithin
  rcases exists_place hnonneg with ⟨k, hk⟩ | ⟨k, part, hk, h0, h1⟩
  · rw [hk, Nat.cast_le] at hle
    rw [hk, floor_natCast, ceil_natCast]
    omega
  · have hlt : (k : ℚ) < ((n - 1 : Nat) : ℚ) := by linarith
    rw [Nat.cast_lt] at hlt
    rw [hk, floor_add_part h0.le h1, ceil_add_part h0 h1.le]
    omega

end Position

/-! ## Reading off -/

section Reading

variable {ordered ordered' : List ℚ} {p p' part q x x' y : ℚ} {k k' : Nat}

theorem readAt_of_quantile (h : quantileOfSorted? ordered q = some x) :
    ReadAt ordered (quantilePosition ordered.length q) x := by
  unfold quantileOfSorted? at h
  rcases exists_place (quantilePosition_nonneg ordered.length q) with
    ⟨k, hk⟩ | ⟨k, part, hk, h0, h1⟩
  · simp only [hk, floor_natCast, ceil_natCast, Scalar.ofNat_exact] at h
    cases hvalue : ordered[k]? with
    | none => simp [hvalue] at h
    | some y =>
      simp only [hvalue, sub_self, mul_zero, add_zero, Option.some.injEq] at h
      rw [hk, ← h]
      exact .atRank hvalue
  · simp only [hk, floor_add_part h0.le h1, ceil_add_part h0 h1.le, Scalar.ofNat_exact,
      add_sub_cancel_left] at h
    split at h
    · rename_i y z hbelow habove
      rw [hk, ← Option.some.inj h]
      exact .between hbelow habove h0 h1
    · cases h

/-- At a rank there is nothing to interpolate. -/
theorem ReadAt.value (h : ReadAt ordered p x) (hp : p = k) : ordered[k]? = some x := by
  cases h with
  | @atRank k' _ value =>
    rw [← Nat.cast_inj.mp hp]
    exact value
  | between _ _ pos lt => exact absurd hp (add_part_ne_natCast pos lt)

theorem ReadAt.blend (h : ReadAt ordered p x) (hp : p = k + part) (h0 : 0 < part)
    (h1 : part < 1) : ∃ y z, ordered[k]? = some y ∧ ordered[k + 1]? = some z ∧
      x = y + (z - y) * part := by
  cases h with
  | atRank _ => exact absurd hp.symm (add_part_ne_natCast h0 h1)
  | @between k' y z part' below above pos lt =>
    obtain rfl := eq_of_add_part_eq pos.le lt h0.le h1 hp
    obtain rfl := add_left_cancel hp
    exact ⟨y, z, below, above, rfl⟩

/-! ### In the position -/

theorem le_of_rank_le (hordered : ordered.Pairwise (· ≤ ·)) (hx : ordered[k]? = some x)
    (hx' : ordered[k']? = some x') (hle : k ≤ k') : x ≤ x' := by
  obtain ⟨hk, rfl⟩ := List.getElem?_eq_some_iff.mp hx
  obtain ⟨hk', rfl⟩ := List.getElem?_eq_some_iff.mp hx'
  rcases Nat.eq_or_lt_of_le hle with rfl | hlt
  · exact le_refl _
  · exact List.pairwise_iff_getElem.mp hordered k k' hk hk' hlt

theorem le_blend (hle : x ≤ y) (h0 : 0 ≤ part) : x ≤ x + (y - x) * part :=
  le_add_of_nonneg_right (mul_nonneg (sub_nonneg.mpr hle) h0)

theorem blend_le (hle : x ≤ y) (h1 : part ≤ 1) : x + (y - x) * part ≤ y := by
  have := mul_le_of_le_one_right (sub_nonneg.mpr hle) h1
  linarith

/-- After a rank nothing smaller is read than at it. -/
theorem ReadAt.value_le (hordered : ordered.Pairwise (· ≤ ·)) (h : ReadAt ordered p x)
    (hy : ordered[k]? = some y) (hle : k ≤ p) : y ≤ x := by
  cases h with
  | atRank value => exact le_of_rank_le hordered hy value (Nat.cast_le.mp hle)
  | @between k' a b part below above pos lt =>
    have hlt : (k : ℚ) < ((k' + 1 : Nat) : ℚ) := by
      push_cast
      linarith
    calc y ≤ a := le_of_rank_le hordered hy below (Nat.lt_succ_iff.mp (Nat.cast_lt.mp hlt))
      _ ≤ a + (b - a) * part := le_blend (le_of_rank_le hordered below above (by omega)) pos.le

/-- A greater position has no smaller value. The greater one is at or above the upper neighbour of
the smaller one, or between the same two ranks. -/
theorem ReadAt.mono (hordered : ordered.Pairwise (· ≤ ·)) (h : ReadAt ordered p x)
    (h' : ReadAt ordered p' x') (hle : p ≤ p') : x ≤ x' := by
  cases h with
  | atRank value => exact h'.value_le hordered value hle
  | @between k a b part below above pos lt =>
    have hab : a ≤ b := le_of_rank_le hordered below above (by omega)
    rcases le_or_gt ((k + 1 : Nat) : ℚ) p' with hfar | hnear
    · exact (blend_le hab lt.le).trans (h'.value_le hordered above hfar)
    · -- between the same two ranks
      push_cast at hnear
      have hplace : p' = k + (p' - k) := by ring
      have hpart : part ≤ p' - k := by linarith
      obtain ⟨a', b', below', above', rfl⟩ := h'.blend hplace (by linarith) (by linarith)
      obtain rfl := Option.some.inj (below.symm.trans below')
      obtain rfl := Option.some.inj (above.symm.trans above')
      gcongr

/-! ### In the values -/

/-- With greater values at all ranks no smaller value is read off. -/
theorem ReadAt.le_of_ranks (h : ReadAt ordered p x) (h' : ReadAt ordered' p x')
    (hranks : ∀ (k : Nat) (y y' : ℚ), ordered[k]? = some y → ordered'[k]? = some y' → y ≤ y') :
    x ≤ x' := by
  cases h with
  | @atRank k _ value => exact hranks k _ _ value (h'.value rfl)
  | @between k a b part below above pos lt =>
    obtain ⟨a', b', below', above', rfl⟩ := h'.blend rfl pos lt
    have ha : a * (1 - part) ≤ a' * (1 - part) :=
      mul_le_mul_of_nonneg_right (hranks k _ _ below below') (by linarith)
    have hb : b * part ≤ b' * part :=
      mul_le_mul_of_nonneg_right (hranks (k + 1) _ _ above above') pos.le
    linarith

/-- Of sorted values those that are not above a bound come first, so the rank of a value tells on
which side of the bound it is. -/
theorem le_iff_lt_countP (hordered : ordered.Pairwise (· ≤ ·)) (hx : ordered[k]? = some x) (y : ℚ) :
    x ≤ y ↔ k < ordered.countP (· ≤ y) := by
  induction ordered generalizing k with
  | nil => cases hx
  | cons z rest ih =>
    obtain ⟨hz, hrest⟩ := List.pairwise_cons.mp hordered
    have hzx : z ≤ x := le_of_rank_le hordered (k := 0) rfl hx (Nat.zero_le k)
    by_cases hzy : z ≤ y
    · rw [List.countP_cons_of_pos (by simpa using hzy)]
      cases k with
      | zero =>
        obtain rfl : z = x := Option.some.inj hx
        simp [hzy]
      | succ k => rw [ih hrest hx, Nat.add_lt_add_iff_right]
    · -- the first value is above the bound, so all are
      have hnone : ∀ w ∈ z :: rest, ¬ decide (w ≤ y) = true := by
        intro w hw hwy
        rcases List.mem_cons.mp hw with rfl | hw
        · exact hzy (of_decide_eq_true hwy)
        · exact hzy ((hz w hw).trans (of_decide_eq_true hwy))
      rw [List.countP_eq_zero.mpr hnone]
      simp only [Nat.not_lt_zero, iff_false]
      exact fun hxy => hzy (hzx.trans hxy)

theorem countP_le_of_forall₂ {values values' : List ℚ}
    (h : List.Forall₂ (· ≤ ·) values values') (y : ℚ) :
    values'.countP (· ≤ y) ≤ values.countP (· ≤ y) := by
  induction h with
  | nil => exact Nat.le_refl _
  | @cons a b values values' hab _ ih =>
    by_cases hb : b ≤ y
    · rw [List.countP_cons_of_pos (by simpa using hb),
        List.countP_cons_of_pos (by simpa using hab.trans hb)]
      exact Nat.succ_le_succ ih
    · rw [List.countP_cons_of_neg (by simpa using hb)]
      exact ih.trans (List.sublist_cons_self ..).countP_le

end Reading

theorem pairwise_le_sorted (values : List ℚ) : (sorted values).Pairwise (· ≤ ·) :=
  (pairwise_sorted values).imp of_decide_eq_true

/-- Sorting keeps the order rank by rank. -/
theorem getElem_sorted_le {values values' : List ℚ} (h : List.Forall₂ (· ≤ ·) values values')
    {k : Nat} {x x' : ℚ} (hx : (sorted values)[k]? = some x)
    (hx' : (sorted values')[k]? = some x') : x ≤ x' := by
  have hcount : k < (sorted values').countP (· ≤ x') :=
    (le_iff_lt_countP (pairwise_le_sorted values') hx' x').mp (le_refl x')
  rw [(sorted_perm values').countP_eq] at hcount
  rw [le_iff_lt_countP (pairwise_le_sorted values) hx, (sorted_perm values).countP_eq]
  exact hcount.trans_le (countP_le_of_forall₂ h x')

/-! ## The quantiles of a sample -/

section Quantile

variable {s t : Sample ℚ} {q q' x x' : ℚ} {k : Nat}

/-- A sample with a value has all quantiles. -/
theorem exists_readAt (hs : s.values ≠ []) (q : ℚ) : ∃ x, s.quantile? q = some x ∧
    ReadAt (sorted s.values) (quantilePosition s.size q) x := by
  obtain ⟨x, hx⟩ := exists_quantile (ranksWithin_exact (size_ne_zero hs) q)
  have hread := readAt_of_quantile hx
  rw [length_sorted] at hread
  exact ⟨x, hx, hread⟩

theorem quantile?_eq_getElem? (hs : s.values ≠ []) (hq : quantilePosition s.size q = k) :
    s.quantile? q = (sorted s.values)[k]? := by
  obtain ⟨x, hx, hread⟩ := exists_readAt hs q
  rw [hx, hread.value hq]

theorem quantile?_clamped (s : Sample ℚ) (q : ℚ) :
    s.quantile? (max 0 (min q 1)) = s.quantile? q := by
  have hposition : ∀ n, quantilePosition n (max 0 (min q 1)) = quantilePosition n q := by
    intro n
    rw [quantilePosition_eq, quantilePosition_eq,
      min_eq_left (max_le zero_le_one (min_le_right q 1)), max_eq_right (le_max_left ..)]
  simp only [Sample.quantile?, quantileOfSorted?, hposition]

theorem quantile?_zero (hs : s.values ≠ []) : s.quantile? 0 = s.min? := by
  rw [quantile?_eq_getElem? hs (quantilePosition_zero _), ← List.head?_eq_getElem?,
    head?_sorted hs]

theorem quantile?_one (hs : s.values ≠ []) : s.quantile? 1 = s.max? := by
  rw [quantile?_eq_getElem? hs (quantilePosition_one _), ← getLast?_sorted hs,
    List.getLast?_eq_getElem?, length_sorted]
  rfl

theorem quantile?_rank (hk : k < s.size) :
    ∃ x, s.quantile? (k / (s.size - 1)) = some x ∧ IsAtRank s.values k x := by
  have hs : s.values ≠ [] := List.ne_nil_of_length_pos (Nat.zero_lt_of_lt hk)
  have hlt : k < (sorted s.values).length := by
    rw [length_sorted]
    exact hk
  rw [quantile?_eq_getElem? hs (quantilePosition_rank hk), List.getElem?_eq_getElem hlt]
  exact ⟨_, rfl, _, sorted_perm s.values, pairwise_le_sorted s.values,
    List.getElem?_eq_getElem hlt⟩

theorem quantile?_mono (hx : s.quantile? q = some x) (hx' : s.quantile? q' = some x')
    (hs : s.values ≠ []) (hle : q ≤ q') : x ≤ x' := by
  obtain ⟨y, hy, hread⟩ := exists_readAt hs q
  obtain ⟨y', hy', hread'⟩ := exists_readAt hs q'
  rw [Option.some.inj (hx.symm.trans hy), Option.some.inj (hx'.symm.trans hy')]
  exact hread.mono (pairwise_le_sorted _) hread' (quantilePosition_mono _ hle)

theorem quantile?_le_of_forall₂ (hs : s.values ≠ [])
    (h : List.Forall₂ (· ≤ ·) s.values t.values) (q : ℚ) :
    ∃ x y, s.quantile? q = some x ∧ t.quantile? q = some y ∧ x ≤ y := by
  have hlength : t.size = s.size := h.length_eq.symm
  have ht : t.values ≠ [] := List.ne_nil_of_length_pos (by
    rw [← h.length_eq]
    exact List.length_pos_iff.mpr hs)
  obtain ⟨x, hx, hread⟩ := exists_readAt hs q
  obtain ⟨y, hy, hread'⟩ := exists_readAt ht q
  rw [hlength] at hread'
  exact ⟨x, y, hx, hy, hread.le_of_ranks hread' fun _ _ _ => getElem_sorted_le h⟩

/-! ## The summary -/

theorem Summary.Describes.mean_exact {m : Summary ℚ} (h : m.Describes s) :
    m.mean = s.values.sum / s.values.length := by
  rw [h.mean, Scalar.sum_exact, Scalar.ofNat_exact]
  rfl

theorem Summary.Describes.min_le_mean {m : Summary ℚ} (h : m.Describes s)
    (hs : s.values ≠ []) : m.min ≤ m.mean := by
  have hlowest := (isLowest_of_min? h.min).2
  have hsum := List.card_nsmul_le_sum s.values m.min fun y hy => of_decide_eq_true (hlowest y hy)
  rw [nsmul_eq_mul, mul_comm] at hsum
  rw [h.mean_exact]
  exact (le_div_iff₀ (Nat.cast_pos.mpr (List.length_pos_iff.mpr hs))).mpr hsum

theorem Summary.Describes.mean_le_max {m : Summary ℚ} (h : m.Describes s)
    (hs : s.values ≠ []) : m.mean ≤ m.max := by
  have hhighest := (isHighest_of_max? h.max).2
  have hsum := List.sum_le_card_nsmul s.values m.max fun y hy => of_decide_eq_true (hhighest y hy)
  rw [nsmul_eq_mul, mul_comm] at hsum
  rw [h.mean_exact]
  exact (div_le_iff₀ (Nat.cast_pos.mpr (List.length_pos_iff.mpr hs))).mpr hsum

theorem Summary.Describes.inOrder {m : Summary ℚ} (h : m.Describes s) (hs : s.values ≠ []) :
    m.InOrder where
  min_le_p25 := quantile?_mono ((quantile?_zero hs).trans h.min) h.p25 hs
    (by rw [Scalar.ofRatio_exact]; norm_num)
  p25_le_median := quantile?_mono h.p25 h.median hs (by simp only [Scalar.ofRatio_exact]; norm_num)
  median_le_p75 := quantile?_mono h.median h.p75 hs (by simp only [Scalar.ofRatio_exact]; norm_num)
  p75_le_p95 := quantile?_mono h.p75 h.p95 hs (by simp only [Scalar.ofRatio_exact]; norm_num)
  p95_le_max := quantile?_mono h.p95 ((quantile?_one hs).trans h.max) hs
    (by rw [Scalar.ofRatio_exact]; norm_num)
  min_le_mean := h.min_le_mean hs
  mean_le_max := h.mean_le_max hs

end Quantile

/-- The summary exists, and with exact numbers nothing in it or in the sample leaves the range of
the values: a quantile moves from the least value to the greatest, never back, and meets every
value at its rank. -/
theorem quantiles_interpolate (s : Sample ℚ) (hs : s.values ≠ []) : s.Interpolates where
  ranks := ranksWithin_exact (size_ne_zero hs)
  interpolated q := by
    obtain ⟨x, hx, hread⟩ := exists_readAt hs q
    rw [quantilePosition_eq, Nat.cast_pred (Nat.pos_of_ne_zero (size_ne_zero hs))] at hread
    exact ⟨x, hx, hread⟩
  clamped q := (quantile?_clamped s q).symm
  atZero := by
    obtain ⟨x, hx⟩ := exists_min? hs
    exact ⟨x, (quantile?_zero hs).trans hx, hx, isLowest_of_min? hx⟩
  atOne := by
    obtain ⟨x, hx⟩ := exists_max? hs
    exact ⟨x, (quantile?_one hs).trans hx, hx, isHighest_of_max? hx⟩
  atRank _ hk := quantile?_rank hk
  monotone q q' hle := by
    obtain ⟨x, hx, _⟩ := exists_readAt hs q
    obtain ⟨x', hx', _⟩ := exists_readAt hs q'
    exact ⟨x, x', hx, hx', quantile?_mono hx hx' hs hle⟩
  raised _ h := quantile?_le_of_forall₂ hs h
  summary := by
    obtain ⟨m, hm, hdescribes⟩ :=
      exists_summary hs fun q _ => ranksWithin_exact (size_ne_zero hs) q
    exact ⟨m, hm, hdescribes, hdescribes.inOrder hs⟩

/-- Each value is twice another. -/
def doublingSample : Sample ℚ := ⟨[4, 1, 8, 2]⟩

theorem doublingSample_interpolates :
    doublingSample.values ≠ [] ∧ doublingSample.quantile? 0 = some 1 ∧
      doublingSample.quantile? 1 = some 8 ∧
      ∃ x y, doublingSample.quantile? (1 / 2) = some x ∧
        (Sample.mk [4, 3, 8, 2]).quantile? (1 / 2) = some y ∧ x ≤ y := by
  have hs : doublingSample.values ≠ [] := by decide
  have h := quantiles_interpolate doublingSample hs
  obtain ⟨x, hx, hmin, -⟩ := h.atZero
  obtain ⟨y, hy, hmax, -⟩ := h.atOne
  refine ⟨hs, hx.trans (hmin.symm.trans ?_), hy.trans (hmax.symm.trans ?_), h.raised _ ?_ _⟩
  · decide +kernel
  · decide +kernel
  · decide +kernel

example : doublingSample.quantile? (1 / 2) = some 3 := by
  have hsorted : [1, 2, 4, 8] = sorted doublingSample.values :=
    eq_sorted (by decide +kernel) (by decide +kernel)
  rw [Sample.quantile?, ← hsorted]
  decide +kernel

end ClusterTrace
