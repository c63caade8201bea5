import ClusterTrace.Proofs.DoubleOrder

/-!
# Sums and the sign of zero

A sum of doubles may start from either zero. The negative zero leaves every double as it is, the
positive one all but the negative zero. So the two sums of a list part only if it holds nothing but
negative zeros, and no sum that starts from the positive zero comes back to the negative one.
-/

namespace ClusterTrace.Double

variable {x : Double}

theorem eq_zeroOf_of_code (h : x.code = 0) : x = zeroOf x.negative := by
  cases x
  cases h
  rfl

/-- A finite number that is no zero is what its own value is rounded to. -/
theorem ofUnits_signedUnits (hfin : x.code < infinityCode) (hne : x.code ≠ 0) :
    ofUnits (x.signedUnits < 0) x.signedUnits.natAbs 1 = x := by
  have hpos : 0 < x.units := units_pos hne
  have hsign : decide (x.signedUnits < 0) = x.negative := by
    unfold signedUnits
    cases x.negative with
    | false => exact decide_eq_false (by simp)
    | true => exact decide_eq_true (by simp only [if_true]; omega)
  have hsize : x.signedUnits.natAbs = x.units * 1 := by
    unfold signedUnits
    split <;> omega
  have hcode : nearestCode (x.units * 1) 1 = x.code := nearestCode_unitsOf hfin.le Nat.one_pos
  cases x
  simp only [ofUnits, hsign, hsize, hcode]

/-- A zero in front of a double leaves it as it is, but for the sign of another zero: the sum of two
zeros is negative only if both are. -/
theorem zeroOf_add (negative : Bool) (x : Double) :
    zeroOf negative + x = if x.code = 0 then zeroOf (negative && x.negative) else x := by
  have hnumber : (zeroOf negative).isNaN = false := rfl
  have hfinite : (zeroOf negative).isInfinite = false := rfl
  have hunits : (zeroOf negative).signedUnits = 0 := by cases negative <;> rfl
  change lift addNumbers _ x = _
  rw [lift, hnumber]
  cases hx : x.isNaN with
  | true =>
    have hne : x.code ≠ 0 := (Nat.zero_lt_of_lt (of_decide_eq_true hx)).ne'
    simp [hne]
  | false =>
    rw [addNumbers, hfinite, hunits, Int.zero_add]
    cases hinf : x.isInfinite with
    | true =>
      have hne : x.code ≠ 0 := isInfinite_iff.mp hinf ▸ infinityCode_pos.ne'
      simp [hne]
    | false =>
      have hfin : x.code < infinityCode := by
        have := isNaN_eq_false_iff.mp hx
        have : x.code ≠ infinityCode := of_decide_eq_false hinf
        omega
      by_cases hzero : x.code = 0
      · have hnone : x.signedUnits = 0 := by
          rw [eq_zeroOf_of_code hzero]
          cases x.negative <;> rfl
        simp [hzero, hnone, zeroOf]
      · have hsome : x.signedUnits ≠ 0 := by
          have := units_pos hzero
          unfold signedUnits
          split <;> omega
        simp [hzero, hsome, ofUnits_signedUnits hfin hzero]

theorem negZero_add (x : Double) : negZero + x = x := by
  rw [negZero, zeroOf_add]
  split
  · rename_i hzero
    exact (eq_zeroOf_of_code hzero).symm
  · rfl

theorem zero_add (hx : x ≠ negZero) : zero + x = x := by
  rw [zero, zeroOf_add]
  split
  · rename_i hzero
    have hsign : x.negative = false := by
      refine Bool.eq_false_iff.mpr fun hn => hx ?_
      rw [eq_zeroOf_of_code hzero, hn]
      rfl
    rw [eq_zeroOf_of_code hzero, hsign]
    rfl
  · rfl

theorem zero_add_negZero : zero + negZero = zero := by decide +kernel

/-- No sum of units that is not zero is rounded to zero. -/
theorem nearestCode_ne_zero {n : Nat} (hn : n ≠ 0) : nearestCode n 1 ≠ 0 := by
  have hleast : nearestCode (unitsOf 1 * 1) 1 = 1 := nearestCode_unitsOf (by decide) Nat.one_pos
  have hone : unitsOf 1 = 1 := rfl
  have hle : nearestCode (unitsOf 1 * 1) 1 ≤ nearestCode n 1 :=
    nearestCode_mono Nat.one_pos Nat.one_pos (by omega)
  omega

/-- An exact sum of zero keeps the negative sign only for two negative zeros. -/
theorem eq_negZero_of_total {y : Double} (htotal : x.signedUnits + y.signedUnits = 0)
    (hsigns : (x.negative && y.negative) = true) : x = negZero := by
  obtain ⟨hx, hy⟩ := Bool.and_eq_true_iff.mp hsigns
  have hunits : x.units = 0 := by
    unfold signedUnits at htotal
    rw [if_pos hx, if_pos hy] at htotal
    omega
  have hcode : x.code = 0 := by
    by_contra hne
    exact (units_pos hne).ne' hunits
  rw [eq_zeroOf_of_code hcode, hx]
  rfl

/-- A sum is the negative zero only if both of its parts are. -/
theorem add_ne_negZero (hx : x ≠ negZero) (y : Double) : x + y ≠ negZero := by
  have hother : ∀ z : Double, z.code ≠ 0 → z ≠ negZero := fun z hz h => hz (h ▸ rfl)
  have hnan : ∀ z : Double, z.isNaN = true → z.code ≠ 0 := fun z hz =>
    (Nat.zero_lt_of_lt (of_decide_eq_true hz)).ne'
  have hinfinite : ∀ z : Double, z.isInfinite = true → z.code ≠ 0 := fun z hz =>
    isInfinite_iff.mp hz ▸ infinityCode_pos.ne'
  change lift addNumbers x y ≠ _
  unfold lift addNumbers
  split
  · exact hx
  split
  next hy => exact hother y (hnan y hy)
  split
  next =>
    split
    · exact hother undefined (by decide)
    · exact hx
  split
  next hy => exact hother y (hinfinite y hy)
  dsimp only
  split
  next htotal =>
    intro h
    exact hx (eq_negZero_of_total htotal (congrArg negative h))
  next htotal => exact hother _ (nearestCode_ne_zero (Int.natAbs_ne_zero.mpr htotal))

/-! ## Whole lists -/

variable {xs : List Double}

theorem foldl_add_ne_negZero {β : Type} (f : β → Double) (bs : List β) (hx : x ≠ negZero) :
    bs.foldl (fun total b => total + f b) x ≠ negZero := by
  induction bs generalizing x with
  | nil => exact hx
  | cons b bs ih => exact ih (add_ne_negZero hx _)

/-- From the first value on that is not the negative zero both sums are the same. -/
theorem foldl_add_negZero (h : ∃ x ∈ xs, x ≠ negZero) :
    xs.foldl (· + ·) negZero = xs.foldl (· + ·) zero := by
  induction xs with
  | nil =>
    obtain ⟨x, hx, -⟩ := h
    cases hx
  | cons x xs ih =>
    rw [List.foldl_cons, List.foldl_cons, negZero_add]
    by_cases hx : x = negZero
    · rw [hx, zero_add_negZero]
      obtain ⟨y, hy, hne⟩ := h
      rcases List.mem_cons.mp hy with rfl | hy
      · exact absurd hx hne
      · exact ih ⟨y, hy, hne⟩
    · rw [zero_add hx]

/-- A list of negative zeros adds nothing to either zero. -/
theorem foldl_add_zeroOf (h : ∀ x ∈ xs, x = negZero) (negative : Bool) :
    xs.foldl (· + ·) (zeroOf negative) = zeroOf negative := by
  induction xs with
  | nil => rfl
  | cons x xs ih =>
    have hstep : zeroOf negative + x = zeroOf negative := by
      rw [h x List.mem_cons_self, zeroOf_add]
      cases negative <;> rfl
    rw [List.foldl_cons, hstep]
    exact ih fun y hy => h y (List.mem_cons_of_mem _ hy)

end ClusterTrace.Double
