import ClusterTrace.Number.Scalar
import ClusterTrace.Proofs.Rounding

/-!
# Doubles that are not negative

Sums, products and quotients of doubles that are no NaN and not below zero. Either zero is among
them, and so is the positive infinity. Their order is that of their codes, a sum is the rounded sum
of the sizes even where it overflows (`code_add`), and so rounding never turns the order of two sums
or of two quotients around.
-/

namespace ClusterTrace.Double

/-- Both are numbers, and the first is not above the second. The two zeros are equal. -/
def AtMost (x y : Double) : Prop := x.isNaN = false ∧ y.isNaN = false ∧ x.rank ≤ y.rank

/-- The double is a number and not below zero. -/
structure Nonneg (x : Double) : Prop where
  isNumber : x.code ≤ infinityCode
  /-- It is negative only as the negative zero. -/
  sign : x.negative = true → x.code = 0

variable {x y x' y' : Double}

/-- The codes above that of infinity are those of the values that are no numbers. -/
theorem isNaN_eq_false_iff : x.isNaN = false ↔ x.code ≤ infinityCode := by
  rw [isNaN, decide_eq_false_iff_not, Nat.not_lt]

theorem isInfinite_iff : x.isInfinite = true ↔ x.code = infinityCode := decide_eq_true_iff

theorem infinityCode_pos : 0 < infinityCode := by decide

/-! ## The order -/

theorem Nonneg.rank_eq (hx : x.Nonneg) : x.rank = x.code := by
  unfold rank
  cases hn : x.negative with
  | false => rfl
  | true => rw [hx.sign hn]; rfl

/-- Numbers that are not negative are ordered as their codes are, which the bounds below are
about. -/
theorem Nonneg.atMost_iff (hx : x.Nonneg) (hy : y.Nonneg) : x.AtMost y ↔ x.code ≤ y.code := by
  rw [AtMost, hx.rank_eq, hy.rank_eq, isNaN_eq_false_iff, isNaN_eq_false_iff, Int.ofNat_le]
  exact ⟨fun h => h.2.2, fun h => ⟨hx.isNumber, hy.isNumber, h⟩⟩

theorem nonneg_zeroOf (negative : Bool) : (zeroOf negative).Nonneg := ⟨Nat.zero_le _, fun _ => rfl⟩

/-- Rounding keeps the sign, so a negative size gives such a number only if it is rounded to
zero. -/
theorem nonneg_ofUnits {negative : Bool} {num den : Nat}
    (h : negative = true → nearestCode num den = 0) : (ofUnits negative num den).Nonneg :=
  ⟨nearestCode_le num den, h⟩

theorem Nonneg.zero_atMost (hx : x.Nonneg) : zero.AtMost x :=
  ((nonneg_zeroOf false).atMost_iff hx).mpr (Nat.zero_le _)

/-- A finite number that is not less than zero is not negative. -/
theorem nonneg_of_not_less (hfin : x.isFinite = true) (hless : x.less zero = false) :
    x.Nonneg := by
  have hcode : x.code < infinityCode := of_decide_eq_true hfin
  refine ⟨hcode.le, fun hn => ?_⟩
  have hrank : ¬ x.rank < zero.rank := by
    intro hlt
    have : x.less zero = true := by
      rw [less, isNaN_eq_false_iff.mpr hcode.le, decide_eq_true hlt]
      rfl
    rw [this] at hless
    cases hless
  have : x.rank = -(x.code : Int) := if_pos hn
  have : zero.rank = 0 := rfl
  omega

/-- Such a number is above zero unless it is one of the two zeros. -/
theorem Nonneg.zero_less (hx : x.Nonneg) (hne : x.code ≠ 0) : zero.less x = true := by
  have hlt : zero.rank < x.rank := by
    have : zero.rank = 0 := rfl
    rw [hx.rank_eq]
    omega
  rw [less, isNaN_eq_false_iff.mpr hx.isNumber, decide_eq_true hlt]
  rfl

/-! ## Sums -/

theorem Nonneg.signedUnits_eq (hx : x.Nonneg) : x.signedUnits = x.units := by
  unfold signedUnits
  cases hn : x.negative with
  | false => rfl
  | true =>
    have : x.units = 0 := by rw [units, hx.sign hn]; rfl
    rw [this]
    rfl

theorem Nonneg.negative_of_ne (hx : x.Nonneg) (hne : x.code ≠ 0) : x.negative = false :=
  Bool.eq_false_iff.mpr fun hn => hne (hx.sign hn)

theorem Nonneg.negative_of_isInfinite (hx : x.Nonneg) (hinf : x.isInfinite = true) :
    x.negative = false := by
  refine hx.negative_of_ne ?_
  rw [isInfinite_iff.mp hinf]
  exact infinityCode_pos.ne'

/-- No operation meets a NaN here. -/
theorem lift_eq (op : Double → Double → Double) (hx : x.Nonneg) (hy : y.Nonneg) :
    lift op x y = op x y := by
  rw [lift, isNaN_eq_false_iff.mpr hx.isNumber, isNaN_eq_false_iff.mpr hy.isNumber]
  rfl

theorem add_eq_addNumbers (hx : x.Nonneg) (hy : y.Nonneg) : x + y = addNumbers x y :=
  lift_eq addNumbers hx hy

/-- A sum with infinity is infinity. -/
theorem add_of_isInfinite_left (hx : x.Nonneg) (hy : y.Nonneg) (hinf : x.isInfinite = true) :
    x + y = x := by
  rw [add_eq_addNumbers hx hy, addNumbers, if_pos hinf, hx.negative_of_isInfinite hinf]
  cases hy' : y.isInfinite with
  | false => rfl
  | true => rw [hy.negative_of_isInfinite hy']; rfl

theorem add_of_isInfinite_right (hx : x.Nonneg) (hy : y.Nonneg) (hfin : ¬ x.isInfinite = true)
    (hinf : y.isInfinite = true) : x + y = y := by
  rw [add_eq_addNumbers hx hy, addNumbers, if_neg hfin, if_pos hinf]

/-- A finite sum is the exact one, rounded. It is zero only if both are, and then the sign of both
decides. -/
theorem add_of_finite (hx : x.Nonneg) (hy : y.Nonneg) (hfin : ¬ x.isInfinite = true)
    (hfin' : ¬ y.isInfinite = true) :
    x + y = if x.units + y.units = 0 then zeroOf (x.negative && y.negative)
      else ofUnits false (x.units + y.units) 1 := by
  rw [add_eq_addNumbers hx hy, addNumbers, if_neg hfin, if_neg hfin', hx.signedUnits_eq,
    hy.signedUnits_eq]
  have hzero : ((x.units : Int) + y.units = 0) ↔ x.units + y.units = 0 := by omega
  have hneg : decide ((x.units : Int) + y.units < 0) = false := by
    rw [decide_eq_false_iff_not]
    omega
  dsimp only
  rw [hneg]
  simp only [hzero]
  rfl

/-- The sum is the rounded sum of the sizes, also for infinite ones and where it overflows. Infinity
has a size of its own, past which everything is rounded to it. -/
theorem code_add (hx : x.Nonneg) (hy : y.Nonneg) :
    (x + y).code = nearestCode (x.units + y.units) 1 := by
  have hpast : ∀ {n}, unitsOf infinityCode ≤ n → nearestCode n 1 = infinityCode := by
    intro n hn
    refine Nat.le_antisymm (nearestCode_le n 1) ?_
    have hexact := nearestCode_unitsOf (Nat.le_refl infinityCode) Nat.one_pos
    rw [Nat.mul_one] at hexact
    rw [← hexact]
    exact nearestCode_mono Nat.one_pos Nat.one_pos (Nat.mul_le_mul_right 1 hn)
  by_cases hinf : x.isInfinite = true
  · have hunits : x.units = unitsOf infinityCode := congrArg unitsOf (isInfinite_iff.mp hinf)
    rw [add_of_isInfinite_left hx hy hinf, hpast (by omega), isInfinite_iff.mp hinf]
  · by_cases hinf' : y.isInfinite = true
    · have hunits : y.units = unitsOf infinityCode := congrArg unitsOf (isInfinite_iff.mp hinf')
      rw [add_of_isInfinite_right hx hy hinf hinf', hpast (by omega), isInfinite_iff.mp hinf']
    · rw [add_of_finite hx hy hinf hinf']
      split
      · rename_i hzero
        rw [hzero]
        rfl
      · rfl

/-- Sums of numbers that are not negative are not negative, also where they overflow. -/
theorem Nonneg.add (hx : x.Nonneg) (hy : y.Nonneg) : (x + y).Nonneg := by
  refine ⟨code_add hx hy ▸ nearestCode_le _ _, ?_⟩
  by_cases hinf : x.isInfinite = true
  · rw [add_of_isInfinite_left hx hy hinf]
    exact hx.sign
  · by_cases hinf' : y.isInfinite = true
    · rw [add_of_isInfinite_right hx hy hinf hinf']
      exact hy.sign
    · rw [add_of_finite hx hy hinf hinf']
      split
      · exact fun _ => rfl
      · exact fun hn => nomatch hn

/-- A sum of larger numbers is not smaller: the exact sum is larger, and rounding keeps the
order. -/
theorem code_add_mono (hx : x.Nonneg) (hy : y.Nonneg) (hx' : x'.Nonneg) (hy' : y'.Nonneg)
    (hle : x.code ≤ x'.code) (hle' : y.code ≤ y'.code) : (x + y).code ≤ (x' + y').code := by
  rw [code_add hx hy, code_add hx' hy']
  refine nearestCode_mono Nat.one_pos Nat.one_pos (Nat.mul_le_mul_right 1 ?_)
  exact Nat.add_le_add (unitsOf_mono hle) (unitsOf_mono hle')

/-- Adding a number that is not negative makes no sum smaller, although it is rounded. -/
theorem code_le_add (hx : x.Nonneg) (hy : y.Nonneg) : x.code ≤ (x + y).code := by
  have hexact := nearestCode_unitsOf hx.isNumber Nat.one_pos
  rw [code_add hx hy]
  calc x.code = nearestCode (x.units * 1) 1 := hexact.symm
    _ ≤ nearestCode (x.units + y.units) 1 :=
      nearestCode_mono Nat.one_pos Nat.one_pos (by omega)

/-- Adding up numbers that are not negative. -/
theorem nonneg_foldl {β : Type} {xs : List β} {f : β → Double} (hf : ∀ b ∈ xs, (f b).Nonneg)
    {a : Double} (ha : a.Nonneg) : (xs.foldl (fun total b => total + f b) a).Nonneg := by
  induction xs generalizing a with
  | nil => exact ha
  | cons b xs ih =>
    exact ih (fun b hb => hf b (List.mem_cons_of_mem _ hb)) (ha.add (hf b List.mem_cons_self))

/-- So a sum of any length stays a number that is not negative. -/
theorem nonneg_sum {β : Type} {xs : List β} {f : β → Double} (hf : ∀ b ∈ xs, (f b).Nonneg) :
    (Scalar.sum (xs.map f)).Nonneg := by
  rw [Scalar.sum, List.foldl_map]
  exact nonneg_foldl hf (nonneg_zeroOf true)

/-! ## Products and quotients -/

theorem units_pos (hne : x.code ≠ 0) : 0 < x.units :=
  Nat.lt_of_lt_of_le Nat.one_pos (unitsOf_mono (Nat.one_le_iff_ne_zero.mpr hne))

theorem unitsPerOne_pos : 0 < unitsPerOne := by decide +kernel

theorem nonneg_ofNat (n : Nat) : (ofNat n).Nonneg := nonneg_ofUnits fun hn => nomatch hn

/-- A natural number other than zero is one at least as a double. -/
theorem unitsPerOne_le_ofNat {n : Nat} (hn : n ≠ 0) : unitsPerOne ≤ (ofNat n).units := by
  have hone : unitsOf (1023 * Nat.pow 2 52) = unitsPerOne := by decide +kernel
  have hle : 1023 * Nat.pow 2 52 ≤ (ofNat n).code := by
    have hfinite : 1023 * Nat.pow 2 52 ≤ infinityCode := by decide
    have hexact := nearestCode_unitsOf hfinite Nat.one_pos
    rw [← hexact, hone]
    refine nearestCode_mono Nat.one_pos Nat.one_pos (Nat.mul_le_mul_right 1 ?_)
    rw [Nat.mul_one]
    exact Nat.le_mul_of_pos_left _ (Nat.pos_of_ne_zero hn)
  rw [← hone]
  exact unitsOf_mono hle

/-- A positive number times a positive natural number is not below it, however large that is. -/
theorem code_le_mul_ofNat (hx : x.Nonneg) (hne : x.code ≠ 0) {n : Nat} (hn : n ≠ 0) :
    (x * ofNat n).Nonneg ∧ x.code ≤ (x * ofNat n).code := by
  have hunits := unitsPerOne_le_ofNat hn
  have hy := nonneg_ofNat n
  have hsign : (ofNat n).negative = false := rfl
  have hne' : (ofNat n).code ≠ 0 := by
    intro hzero
    rw [units, hzero] at hunits
    exact absurd hunits (by decide +kernel)
  generalize ofNat n = y at *
  have hmul : x * y = mulNumbers x y := lift_eq mulNumbers hx hy
  have hzero : (x.isZero || y.isZero) = false := by simp [isZero, hne, hne']
  rw [hmul, mulNumbers, hzero, hsign, hx.negative_of_ne hne]
  split
  · exact ⟨⟨Nat.le_refl _, fun hneg => nomatch hneg⟩, hx.isNumber⟩
  · refine ⟨nonneg_ofUnits (fun hneg => nomatch hneg), ?_⟩
    have hpos := unitsPerOne_pos
    have hexact := nearestCode_unitsOf hx.isNumber hpos
    calc x.code = nearestCode (x.units * unitsPerOne) unitsPerOne := hexact.symm
      _ ≤ nearestCode (x.units * y.units) unitsPerOne :=
        nearestCode_mono hpos hpos (Nat.mul_le_mul_right _ (Nat.mul_le_mul_left _ hunits))

/-- A quotient by a positive number is rounded, unless one of the two is infinite; both must not
be. -/
theorem div_eq (hx : x.Nonneg) (hy : y.Nonneg) (hne : y.code ≠ 0)
    (hboth : ¬ (x.isInfinite = true ∧ y.isInfinite = true)) :
    x / y = if x.isInfinite then infinityOf x.negative
      else if y.isInfinite then zeroOf x.negative
      else ofUnits x.negative (x.units * unitsPerOne) y.units := by
  have hzero : y.isZero = false := decide_eq_false hne
  have hdiv : x / y = divNumbers x y := lift_eq divNumbers hx hy
  rw [hdiv, divNumbers, hy.negative_of_ne hne, hzero, Bool.bne_false]
  by_cases hinf : x.isInfinite = true
  · have hfin : ¬ y.isInfinite = true := fun hinf' => hboth ⟨hinf, hinf'⟩
    simp only [hinf, if_true, if_neg hfin]
  · simp only [if_neg hinf]
    rfl

/-- A quotient is such a number as well if the divisor is not zero and the two are not both
infinite. -/
theorem Nonneg.div (hx : x.Nonneg) (hy : y.Nonneg) (hne : y.code ≠ 0)
    (hboth : ¬ (x.isInfinite = true ∧ y.isInfinite = true)) : (x / y).Nonneg := by
  rw [div_eq hx hy hne hboth]
  by_cases hinf : x.isInfinite = true
  · rw [if_pos hinf, hx.negative_of_isInfinite hinf]
    exact ⟨Nat.le_refl _, fun hneg => nomatch hneg⟩
  · rw [if_neg hinf]
    split
    · exact nonneg_zeroOf _
    · refine nonneg_ofUnits fun hneg => ?_
      have hzero : unitsOf 0 = 0 := rfl
      have hexact := nearestCode_unitsOf (Nat.zero_le infinityCode) (units_pos hne)
      rw [hzero, Nat.zero_mul] at hexact
      rw [units, hx.sign hneg, hzero, Nat.zero_mul, hexact]

theorem isInfinite_of_le (hx' : x'.Nonneg) (hle : x.code ≤ x'.code) (hinf : x.isInfinite = true) :
    x'.isInfinite = true :=
  isInfinite_iff.mpr (Nat.le_antisymm hx'.isNumber (isInfinite_iff.mp hinf ▸ hle))

/-- Dividing by the same number keeps the order. The divisor must be no zero, and no quotient one of
two infinities. -/
theorem code_div_mono (hx : x.Nonneg) (hx' : x'.Nonneg) (hy : y.Nonneg) (hne : y.code ≠ 0)
    (hboth : ¬ (x'.isInfinite = true ∧ y.isInfinite = true)) (hle : x.code ≤ x'.code) :
    (x / y).code ≤ (x' / y).code := by
  have hinf_le := isInfinite_of_le hx' hle
  have hboth' : ¬ (x.isInfinite = true ∧ y.isInfinite = true) := fun h => hboth ⟨hinf_le h.1, h.2⟩
  have hnumber := (hx.div hy hne hboth').isNumber
  rw [div_eq hx' hy hne hboth]
  by_cases hinf' : x'.isInfinite = true
  · rw [if_pos hinf']
    exact hnumber
  · have hinf : ¬ x.isInfinite = true := mt hinf_le hinf'
    rw [div_eq hx hy hne hboth', if_neg hinf, if_neg hinf']
    split
    · exact Nat.le_refl _
    · exact nearestCode_mono (units_pos hne) (units_pos hne) (Nat.mul_le_mul_right _
        (Nat.mul_le_mul_right _ (unitsOf_mono hle)))

end ClusterTrace.Double
