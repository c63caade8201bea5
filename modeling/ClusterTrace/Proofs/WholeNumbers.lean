import ClusterTrace.Proofs.DoubleOrder
import ClusterTrace.Proofs.Numerals
import Mathlib.Data.List.TakeWhile

/-!
# Whole numbers as doubles

A natural number of 64 bits that is read as a double keeps 53 bits of its significand: it becomes
the nearest of the numbers that have no more (`Double.nearestWhole`). So it is kept exactly if it
has no more itself, and else it is off by at most half of the last bit that is kept.
-/

namespace ClusterTrace

namespace Double

/-! ## Rounding to 53 bits -/

/-- The bits of a number that its significand of 53 bits has no place for. -/
def excess (n : Nat) : Nat := n.log2 - 52

/-- The number rounded to a significand of 53 bits, a half to the even one. -/
def nearestWhole (n : Nat) : Nat :=
  roundedQuotient n (Nat.pow 2 (excess n)) * Nat.pow 2 (excess n)

/-- The number has a significand of 53 bits. -/
def IsShort (n : Nat) : Prop := ∃ significand shift,
  significand < Nat.pow 2 53 ∧ n = significand * Nat.pow 2 shift

variable {n m : Nat}

theorem lt_pow_excess (n : Nat) : n < Nat.pow 2 (53 + excess n) :=
  Nat.lt_of_lt_of_le Nat.lt_log2_self
    (Nat.pow_le_pow_right (by decide) (by unfold excess; omega))

/-- A number with bits in excess is at least as large as its leading bit. -/
theorem pow_le_of_excess (h : 0 < excess n) : Nat.pow 2 (52 + excess n) ≤ n := by
  have hlog : 52 + excess n = n.log2 := by unfold excess at *; omega
  have hne : n ≠ 0 := by
    rintro rfl
    exact absurd h (by decide)
  rw [hlog]
  exact Nat.log2_self_le hne

/-- A number with 53 bits that is as large as one with more leaves the same bits out. -/
theorem IsShort.dvd (h : IsShort m) (hle : Nat.pow 2 (52 + excess n) ≤ m) :
    Nat.pow 2 (excess n) ∣ m := by
  obtain ⟨significand, shift, hlt, rfl⟩ := h
  have hshift : excess n ≤ shift := by
    by_contra hlarge
    have hpow : Nat.pow 2 (53 + shift) ≤ Nat.pow 2 (52 + excess n) :=
      Nat.pow_le_pow_right (by decide) (by omega)
    have hprod : significand * Nat.pow 2 shift < Nat.pow 2 (53 + shift) := by
      rw [pow_two_add]
      exact Nat.mul_lt_mul_of_pos_right hlt (pow_two_pos shift)
    omega
  exact (Nat.pow_dvd_pow 2 hshift).mul_left significand

/-- Without the bits in excess 53 bits are left, which hold the number if those are zero. -/
theorem isShort_of_dvd (h : Nat.pow 2 (excess n) ∣ n) : IsShort n := by
  obtain ⟨significand, hn⟩ := h
  refine ⟨significand, excess n, ?_, hn.trans (Nat.mul_comm ..)⟩
  have hlt := lt_pow_excess n
  rw [Nat.add_comm 53, pow_two_add] at hlt
  refine Nat.lt_of_mul_lt_mul_left (a := Nat.pow 2 (excess n)) ?_
  rw [← hn]
  exact hlt

/-- A number has a significand of 53 bits if the bits in excess are zero, and only then. -/
theorem isShort_iff_dvd : IsShort n ↔ Nat.pow 2 (excess n) ∣ n := by
  refine ⟨fun h => ?_, isShort_of_dvd⟩
  rcases Nat.eq_zero_or_pos (excess n) with hzero | hpos
  · rw [hzero]
    exact one_dvd n
  · exact h.dvd (pow_le_of_excess hpos)

/-- The numbers that are their own nearest are those of 53 bits and a shift. -/
theorem nearestWhole_eq_self_iff : nearestWhole n = n ↔ IsShort n := by
  rw [isShort_iff_dvd, nearestWhole]
  constructor
  · intro h
    exact Dvd.intro_left _ h
  · rintro ⟨significand, hn⟩
    rw [Nat.mul_comm] at hn
    generalize excess n = shift at *
    rw [hn, roundedQuotient_mul (pow_two_pos shift)]

theorem isShort_of_le (h : n ≤ Nat.pow 2 53) : IsShort n := by
  rcases Nat.eq_or_lt_of_le h with rfl | hlt
  · exact ⟨1, 53, by decide, rfl⟩
  · exact ⟨n, 0, hlt, (Nat.mul_one n).symm⟩

/-- What rounding gives has 53 bits, also where it carries into the next power of two. -/
theorem isShort_nearestWhole (n : Nat) : IsShort (nearestWhole n) := by
  have hle : roundedQuotient n (Nat.pow 2 (excess n)) ≤ Nat.pow 2 53 := by
    refine roundedQuotient_le (pow_two_pos _) ?_
    rw [← pow_two_add]
    exact (lt_pow_excess n).le
  rcases Nat.eq_or_lt_of_le hle with heq | hlt
  · refine ⟨1, 53 + excess n, by decide, ?_⟩
    rw [nearestWhole, heq, ← pow_two_add, Nat.one_mul]
  · exact ⟨_, _, hlt, rfl⟩

/-- No number with 53 bits is nearer. Those below the leading bit are further away than the leading
bit is, and the others are multiples of the last bit that is kept. -/
theorem nearestWhole_closest (h : IsShort m) :
    ((nearestWhole n : Int) - n).natAbs ≤ ((m : Int) - n).natAbs := by
  rcases Nat.eq_zero_or_pos (excess n) with hzero | hpos
  · have hself : nearestWhole n = n := by
      rw [nearestWhole_eq_self_iff, isShort_iff_dvd, hzero]
      exact one_dvd n
    rw [hself, Int.sub_self]
    exact Nat.zero_le _
  · obtain ⟨hlow, hhigh, -⟩ := roundedQuotient_near (pow_two_pos (excess n)) n
    have hlarge := pow_le_of_excess hpos
    -- Some multiple of the last bit that is kept is at least as near as `m`.
    have hmultiple : ∃ j, ((Nat.pow 2 (excess n) * j : Nat) - (n : Int)).natAbs ≤
        ((m : Int) - n).natAbs := by
      rcases Nat.lt_or_ge m (Nat.pow 2 (52 + excess n)) with hlt | hge
      · refine ⟨Nat.pow 2 52, ?_⟩
        rw [← pow_two_add, Nat.add_comm (excess n)]
        omega
      · obtain ⟨j, rfl⟩ := h.dvd hge
        exact ⟨j, Nat.le_refl _⟩
    obtain ⟨j, hj⟩ := hmultiple
    refine Nat.le_trans ?_ hj
    rw [nearestWhole, Nat.mul_comm]
    generalize roundedQuotient n (Nat.pow 2 (excess n)) = q at *
    generalize Nat.pow 2 (excess n) = unit at *
    rcases Nat.lt_trichotomy j q with hless | rfl | hmore
    · have hstep := Nat.mul_le_mul_left unit (Nat.succ_le_of_lt hless)
      rw [Nat.mul_succ] at hstep
      omega
    · exact Nat.le_refl _
    · have hstep := Nat.mul_le_mul_left unit (Nat.succ_le_of_lt hmore)
      rw [Nat.mul_succ] at hstep
      omega

/-! ## Doubles of whole numbers -/

/-- A shift moves the leading bit by as many places. -/
theorem log2_mul_pow (hn : n ≠ 0) (k : Nat) : (n * Nat.pow 2 k).log2 = n.log2 + k := by
  have hpos := pow_two_pos k
  refine (Nat.log2_eq_iff (Nat.mul_ne_zero hn hpos.ne')).mpr ⟨?_, ?_⟩
  · rw [Nat.pow_add]
    exact Nat.mul_le_mul_right _ (Nat.log2_self_le hn)
  · rw [Nat.add_right_comm, Nat.pow_add]
    exact Nat.mul_lt_mul_of_pos_right Nat.lt_log2_self hpos

theorem code_ofNat (n : Nat) : (ofNat n).code = nearestCode (n * unitsPerOne) 1 := rfl

theorem code_ofNat_lt (hn : n ≤ maxWord) : (ofNat n).code < infinityCode := by
  have hlast : nearestCode (maxWord * unitsPerOne) 1 < infinityCode := by decide +kernel
  rw [code_ofNat]
  refine Nat.lt_of_le_of_lt (nearestCode_mono Nat.one_pos Nat.one_pos ?_) hlast
  exact Nat.mul_le_mul_right 1 (Nat.mul_le_mul_right unitsPerOne hn)

/-- A number of 64 bits becomes the double of the nearest number with 53 bits, and none is past the
largest double. -/
theorem units_ofNat (hn : n ≤ maxWord) : (ofNat n).units = nearestWhole n * unitsPerOne := by
  by_cases hzero : n = 0
  · rw [hzero]
    decide +kernel
  · -- The power is kept apart from its exponent, so that nothing computes it.
    obtain ⟨point, hone, hpoint⟩ : ∃ point, unitsPerOne = Nat.pow 2 point ∧ point = 1074 := by
      refine ⟨1074, ?_, rfl⟩
      unfold unitsPerOne
      rfl
    have hshift : shiftOf (n * unitsPerOne) 1 = n.log2 + point - 52 := by
      rw [shiftOf, Nat.div_one, hone, log2_mul_pow hzero]
    have hfinite : nearestCode (n * unitsPerOne) 1 < infinityCode := code_ofNat_lt hn
    rw [units, code_ofNat, unitsOf_nearestCode Nat.one_pos hfinite, hshift, Nat.one_mul]
    rcases Nat.eq_zero_or_pos (excess n) with hnone | hpos
    · have hself : nearestWhole n = n := by
        rw [nearestWhole_eq_self_iff, isShort_iff_dvd, hnone]
        exact one_dvd n
      have hunit : unitsPerOne = Nat.pow 2 (52 - n.log2) * Nat.pow 2 (n.log2 + point - 52) := by
        rw [← pow_two_add, hone]
        refine congrArg (Nat.pow 2) ?_
        unfold excess at hnone
        omega
      rw [hself, hunit, ← Nat.mul_assoc, roundedQuotient_mul (pow_two_pos _)]
    · have hunit : Nat.pow 2 (n.log2 + point - 52) = Nat.pow 2 (excess n) * unitsPerOne := by
        rw [hone, ← pow_two_add]
        refine congrArg (Nat.pow 2) ?_
        unfold excess at *
        omega
      rw [hunit, roundedQuotient_scale unitsPerOne_pos, nearestWhole, Nat.mul_assoc]

theorem isWhole_ofNat (hn : n ≤ maxWord) : (ofNat n).isWhole = true := by
  rw [isWhole, isFinite, decide_eq_true (code_ofNat_lt hn), Bool.true_and, units_ofNat hn,
    Nat.mul_mod_left]
  rfl

/-- The double of a number is cut back to the largest number of 64 bits if it was rounded up past
it. -/
theorem floor_ofNat (hn : n ≤ maxWord) : (ofNat n).floor = min maxWord (nearestWhole n) := by
  have hfinite := code_ofNat_lt hn
  have hnumber : (ofNat n).isNaN = false := isNaN_eq_false_iff.mpr hfinite.le
  have hbounded : (ofNat n).isInfinite = false := decide_eq_false hfinite.ne
  have hsign : (ofNat n).negative = false := rfl
  rw [floor, toWhole, hnumber, hsign, hbounded, units_ofNat hn,
    Nat.mul_div_cancel _ unitsPerOne_pos]
  rfl

/-- The quotient of two numbers with 53 bits is rounded once. -/
theorem ofNat_div_ofNat (hn : n ≤ maxWord) (hm : m ≤ maxWord) (hn' : IsShort n) (hm' : IsShort m)
    (hzero : m ≠ 0) : ofNat n / ofNat m = ofRatio n m := by
  have hfinite : (ofNat n).isInfinite = false := decide_eq_false (code_ofNat_lt hn).ne
  have hfinite' : (ofNat m).isInfinite = false := decide_eq_false (code_ofNat_lt hm).ne
  have hsign : (ofNat n).negative = false := rfl
  have hunits : (ofNat m).units = m * unitsPerOne := by
    rw [units_ofNat hm, nearestWhole_eq_self_iff.mpr hm']
  have hne : (ofNat m).code ≠ 0 := by
    intro hcode
    have hnone : (ofNat m).units = 0 := by rw [units, hcode]; rfl
    rw [hunits] at hnone
    exact (Nat.mul_pos (Nat.pos_of_ne_zero hzero) unitsPerOne_pos).ne' hnone
  have hcode : nearestCode (n * unitsPerOne * unitsPerOne) (m * unitsPerOne) =
      nearestCode (n * unitsPerOne) m :=
    nearestCode_scale unitsPerOne_pos (Nat.pos_of_ne_zero hzero) _
  rw [div_eq (nonneg_ofNat n) (nonneg_ofNat m) hne (by simp [hfinite]), hfinite, hfinite', hsign,
    hunits, units_ofNat hn, nearestWhole_eq_self_iff.mpr hn', ofRatio]
  simp only [Bool.false_eq_true, if_false, ofUnits, hcode]

theorem less_ofNat_zero (n : Nat) : (ofNat n).less zero = false := by
  have hrank : (ofNat n).rank = (ofNat n).code := (nonneg_ofNat n).rank_eq
  have hzero : zero.rank = 0 := rfl
  rw [less, hrank, hzero, Bool.and_eq_false_iff]
  exact .inr (decide_eq_false (by omega))

end Double

/-! ## Reading -/

open Double

/-- Digits without a point or an exponent are a whole number. -/
theorem ofScientific_eq_ofNat (n : Nat) : ofScientific false n 0 = ofNat n := by
  by_cases hzero : n = 0
  · rw [hzero]
    decide +kernel
  · have hpower : n * Nat.pow 10 (0 : Int).toNat = n := Nat.mul_one n
    rw [ofScientific, if_neg hzero, if_neg (by decide), if_neg (by omega), if_pos (Int.le_refl 0),
      hpower]
    rfl

theorem toLower_of_isDigit {c : Char} (h : c.isDigit = true) : c.toLower = c := by
  have hle : c.val.toNat ≤ 57 := by
    simp only [Char.isDigit, Bool.and_eq_true, decide_eq_true_eq] at h
    exact UInt32.le_iff_toNat_le.mp h.2
  unfold Char.toLower
  refine dif_neg fun hupper => ?_
  have hge : 65 ≤ c.val.toNat := UInt32.le_iff_toNat_le.mp hupper.1
  omega

/-- Digits alone are read as a double: they have neither a point nor an exponent. -/
theorem readPositional?_of_isNumeral {digits : List Char} {n : Nat} (h : IsNumeral digits n) :
    readPositional? false digits = some (ofNat n) := by
  have hnumeral : numeral digits = n := h.value
  have hwhole : digits.takeWhile Char.isDigit = digits := List.takeWhile_eq_self_iff.mpr h.digits
  have hrest : digits.dropWhile Char.isDigit = [] := List.dropWhile_eq_nil_iff.mpr h.digits
  have hne : digits.isEmpty = false := by
    rw [Bool.eq_false_iff, ne_eq, List.isEmpty_iff]
    exact h.nonempty
  simp [readPositional?, hwhole, hrest, hne, readExponent?, hnumeral, ofScientific_eq_ofNat]

/-- Behind a sign that is no minus, digits are read as the double nearest to their number. -/
theorem read?_of_splitSign {text : String} {digits : List Char} {n : Nat}
    (hsign : splitSign text.toList = (false, digits)) (h : IsNumeral digits n) :
    Double.read? text = some (ofNat n) := by
  obtain ⟨c, rest, rfl⟩ := List.exists_cons_of_ne_nil h.nonempty
  have hdigit : c.isDigit = true := h.digits c List.mem_cons_self
  have hname : ∀ name : String, name.toList.head?.any Char.isDigit = false →
      (c :: rest).map Char.toLower ≠ name.toList := by
    intro name hletter heq
    rw [← heq, List.map_cons, toLower_of_isDigit hdigit, List.head?_cons, Option.any_some,
      hdigit] at hletter
    cases hletter
  unfold Double.read?
  rw [hsign]
  dsimp only
  rw [if_neg (not_or.mpr ⟨hname "inf" rfl, hname "infinity" rfl⟩), if_neg (hname "nan" rfl)]
  exact readPositional?_of_isNumeral h

theorem splitSign_of_isNumeral {digits : List Char} {n : Nat} (h : IsNumeral digits n) :
    splitSign digits = (false, digits) := by
  unfold splitSign
  split
  next rest => exact absurd (h.digits '-' List.mem_cons_self) (by decide)
  next rest => exact absurd (h.digits '+' List.mem_cons_self) (by decide)
  next => rfl

/-- A numeral is read as the double of its number, so it is rounded just once. -/
theorem read?_of_isNumeral {text : String} {n : Nat} (h : IsNumeral text.toList n) :
    Double.read? text = some (ofNat n) :=
  read?_of_splitSign (splitSign_of_isNumeral h) h

/-- What is read as a natural number is a numeral, with a plus sign in front or without. -/
theorem exists_numeral_of_readNatural? {text : String} {n : Nat} (h : readNatural? text = some n) :
    ∃ digits, splitSign text.toList = (false, digits) ∧ IsNumeral digits n := by
  have hfitting : ∀ digits : List Char, (numeral? digits).bind fitting = some n →
      IsNumeral digits n := fun digits hread => (numeral?_bind_fitting_eq_some_iff.mp hread).1
  unfold readNatural? at h
  split at h
  next digits heq => exact ⟨digits, by rw [heq]; rfl, hfitting digits h⟩
  next => exact ⟨_, splitSign_of_isNumeral (hfitting _ h), hfitting _ h⟩

/-- A text that is read as a natural number is no other one as a double. -/
theorem read?_of_readNatural? {text : String} {n : Nat} (h : readNatural? text = some n) :
    Double.read? text = some (ofNat n) := by
  obtain ⟨digits, hsign, hdigits⟩ := exists_numeral_of_readNatural? h
  exact read?_of_splitSign hsign hdigits

end ClusterTrace
