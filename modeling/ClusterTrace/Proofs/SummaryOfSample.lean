import ClusterTrace.Proofs.SignedZero
import ClusterTrace.Proofs.SortedValues
import ClusterTrace.Proofs.WholeNumbers

/-!
# A sample and its summary

The summary of values goes its own way: its extremes are the ends of the sorted values, its mean
starts from the neutral zero. It says the same as the sample, bit for bit, but for one case, the
mean of values that are all the negative zero. It exists whenever there is a value: the position of
each of its quantiles is a product that is rounded twice, and yet it never passes the last value,
since such a quantile is well below one (`Double.IsPart`).
-/

namespace ClusterTrace

/-- The mean of a summary is that of the sample, but for the sign of zero where every value is the
negative zero. -/
structure Summary.MeanOf (m : Summary Double) (s : Sample Double) : Prop where
  same : (∃ x ∈ s.values, x ≠ Double.negZero) → m.mean = s.mean
  negZeros : (∀ x ∈ s.values, x = Double.negZero) → m.mean = Double.negZero ∧ s.mean = Double.zero

namespace Double

variable {q x : Double} {n : Nat}

/-- A part that is so far below one that rounding does not make it the whole. -/
structure IsPart (q : Double) : Prop where
  negative : q.negative = false
  code_le : q.code ≤ (ofRatio 31 32).code

/-! ## Positions -/

theorem unitsOf_zero : unitsOf 0 = 0 := rfl

theorem nearestCode_zero {den : Nat} (hden : 0 < den) : nearestCode 0 den = 0 := by
  have h := nearestCode_unitsOf (Nat.zero_le infinityCode) hden
  rwa [unitsOf_zero, Nat.zero_mul] at h

theorem ofUnits_zero (negative : Bool) {den : Nat} (hden : 0 < den) :
    ofUnits negative 0 den = zeroOf negative := by
  simp only [ofUnits, nearestCode_zero hden, zeroOf]

/-- Of two neighbouring sizes the larger one is not much larger. -/
theorem unitsOf_pred {code : Nat} (h : Nat.pow 2 52 < code) :
    31 * unitsOf code ≤ 32 * unitsOf (code - 1) := by
  obtain ⟨shift, part, hpart, hcode, hunits⟩ := exists_significand (Nat.le_sub_one_of_lt h)
  have hnext : code = shift * Nat.pow 2 52 + (Nat.pow 2 52 + part + 1) := by
    rw [Nat.succ_mul] at hcode
    omega
  have hlarge : Nat.pow 2 52 ≤ Nat.pow 2 52 + part + 1 := by omega
  have hunits' : unitsOf code = (Nat.pow 2 52 + part + 1) * Nat.pow 2 shift := by
    rw [hnext]
    exact unitsOf_shifted (by omega) fun _ => hlarge
  have hsmall : 31 ≤ Nat.pow 2 52 := by decide
  rw [hunits, hunits', ← Nat.mul_assoc, ← Nat.mul_assoc]
  exact Nat.mul_le_mul_right _ (by omega)

theorem code_ofNat_ne_zero (hn : n ≠ 0) : (ofNat n).code ≠ 0 := by
  intro hzero
  have hunits := unitsPerOne_le_ofNat hn
  rw [units, hzero] at hunits
  exact absurd hunits (by decide +kernel)

/-- The double before the one to which a number is rounded is not above the number. -/
theorem unitsOf_pred_ofNat_le (hn : n ≠ 0) : unitsOf ((ofNat n).code - 1) ≤ n * unitsPerOne := by
  have hnumber : (ofNat n).code ≤ infinityCode := (nonneg_ofNat n).isNumber
  have hpos := code_ofNat_ne_zero hn
  by_contra hlt
  have hmono := nearestCode_mono Nat.one_pos Nat.one_pos
    (Nat.mul_le_mul_right 1 ((Nat.not_le.mp hlt).le.trans (Nat.mul_one _).ge))
  rw [nearestCode_unitsOf (by omega) Nat.one_pos, ← code_ofNat] at hmono
  omega

theorem IsPart.code_lt (hq : q.IsPart) : q.code < infinityCode :=
  Nat.lt_of_le_of_lt hq.code_le (by decide +kernel)

theorem IsPart.nonneg (hq : q.IsPart) : q.Nonneg where
  isNumber := hq.code_lt.le
  sign hneg := by
    rw [hq.negative] at hneg
    cases hneg

theorem IsPart.units_le (hq : q.IsPart) : 32 * q.units ≤ 31 * unitsPerOne := by
  have hlast : 32 * (ofRatio 31 32).units = 31 * unitsPerOne := by decide +kernel
  rw [← hlast]
  exact Nat.mul_le_mul_left 32 (unitsOf_mono hq.code_le)

theorem code_mul_ofNat (hq : q.IsPart) (hn : n ≤ maxWord) :
    (q * ofNat n).code = nearestCode (q.units * (ofNat n).units) unitsPerOne := by
  have hinf : q.isInfinite = false := decide_eq_false hq.code_lt.ne
  have hinf' : (ofNat n).isInfinite = false := decide_eq_false (code_ofNat_lt hn).ne
  have hmul : q * ofNat n = mulNumbers q (ofNat n) :=
    lift_eq mulNumbers hq.nonneg (nonneg_ofNat n)
  rw [hmul, mulNumbers, hinf, hinf']
  rfl

/-- The product before it is rounded lies below the double in front of the whole. -/
theorem units_mul_le (hq : q.IsPart) (hn : n ≠ 0) :
    q.units * (ofNat n).units ≤ unitsOf ((ofNat n).code - 1) * unitsPerOne := by
  have hlarge : Nat.pow 2 52 < (ofNat n).code := by
    by_contra hsmall
    have hunits := (unitsPerOne_le_ofNat hn).trans (unitsOf_mono (Nat.not_lt.mp hsmall))
    exact absurd hunits (by decide +kernel)
  have hpart := hq.units_le
  have hratio : 31 * (ofNat n).units ≤ 32 * unitsOf ((ofNat n).code - 1) := unitsOf_pred hlarge
  -- The sizes are made variables, so that nothing computes them.
  generalize q.units = part at *
  generalize (ofNat n).units = size at *
  generalize unitsOf ((ofNat n).code - 1) = before at *
  generalize unitsPerOne = one at *
  have hscaled : 32 * 31 * (part * size) ≤ 32 * 31 * (before * one) :=
    calc 32 * 31 * (part * size) = 32 * part * (31 * size) := by ring
      _ ≤ 31 * one * (32 * before) := Nat.mul_le_mul hpart hratio
      _ = 32 * 31 * (before * one) := by ring
  exact Nat.le_of_mul_le_mul_left hscaled (by decide)

/-- A part of a whole number, rounded, is finite and not above the number. -/
theorem units_mul_ofNat_le (hq : q.IsPart) (hn : n ≤ maxWord) :
    (q * ofNat n).code < infinityCode ∧ (q * ofNat n).units ≤ n * unitsPerOne := by
  have hpos := unitsPerOne_pos
  rw [units, code_mul_ofNat hq hn]
  by_cases hzero : n = 0
  · have hnone : (ofNat n).units = 0 := by
      rw [hzero]
      decide +kernel
    rw [hnone, Nat.mul_zero, nearestCode_zero hpos, unitsOf_zero]
    exact ⟨infinityCode_pos, Nat.zero_le _⟩
  · have hexact := nearestCode_unitsOf
      ((Nat.sub_le ..).trans (code_ofNat_lt hn).le : (ofNat n).code - 1 ≤ infinityCode) hpos
    have hcode : nearestCode (q.units * (ofNat n).units) unitsPerOne ≤ (ofNat n).code - 1 := by
      rw [← hexact]
      exact nearestCode_mono hpos hpos (Nat.mul_le_mul_right _ (units_mul_le hq hzero))
    exact ⟨Nat.lt_of_le_of_lt (hcode.trans (Nat.sub_le ..)) (code_ofNat_lt hn),
      (unitsOf_mono hcode).trans (unitsOf_pred_ofNat_le hzero)⟩

theorem div_up_le {num den : Nat} (hden : 0 < den) (h : num ≤ n * den) :
    (num + den - 1) / den ≤ n := by
  rw [← Nat.lt_succ_iff, Nat.div_lt_iff_lt_mul hden, Nat.succ_mul]
  omega

theorem toWhole_le_maxWord (quotient : Nat → Nat → Nat) (x : Double) :
    x.toWhole quotient ≤ maxWord := by
  unfold toWhole
  split
  · exact Nat.zero_le _
  · split
    · exact Nat.le_refl _
    · exact Nat.min_le_left ..

theorem toWhole_le (quotient : Nat → Nat → Nat) (hfinite : x.code < infinityCode)
    (hle : quotient x.units unitsPerOne ≤ n) : x.toWhole quotient ≤ n := by
  have hinf : x.isInfinite = false := decide_eq_false hfinite.ne
  unfold toWhole
  split
  · exact Nat.zero_le _
  · rw [hinf]
    exact (Nat.min_le_right ..).trans hle

/-! ## Ranks -/

theorem floor_eq (x : Double) : Scalar.floor x = x.toWhole fun num den => num / den := rfl

theorem ceil_eq (x : Double) : Scalar.ceil x = x.toWhole fun num den => (num + den - 1) / den := rfl

theorem IsPart.clampUnit_eq (hq : q.IsPart) : clampUnit q = q := by
  have hrank : q.rank = q.code := by rw [rank, hq.negative]; rfl
  have hlow : Scalar.less q Scalar.zero = false := by
    change q.less zero = false
    have hzero : zero.rank = 0 := rfl
    rw [less, hrank, hzero, Bool.and_eq_false_iff]
    exact .inr (decide_eq_false (by omega))
  have hhigh : Scalar.less (Scalar.ofNat 1) q = false := by
    change (ofNat 1).less q = false
    have hone : (ofNat 1).rank = (ofNat 1).code := rfl
    have hbelow : (ofRatio 31 32).code < (ofNat 1).code := by decide +kernel
    have hle := hq.code_le
    rw [less, hrank, hone, Bool.and_eq_false_iff]
    exact .inr (decide_eq_false (by omega))
  simp [clampUnit, hlow, hhigh]

theorem IsPart.ranksWithin (hq : q.IsPart) {count : Nat} (hcount : count ≠ 0) :
    RanksWithin count q := by
  have hposition : quantilePosition count q = q * ofNat (count - 1) := by
    rw [quantilePosition, hq.clampUnit_eq]
    rfl
  rw [RanksWithin, hposition, floor_eq, ceil_eq]
  rcases Nat.lt_or_ge maxWord (count - 1) with hlarge | hword
  · have hlow := toWhole_le_maxWord (fun num den => num / den) (q * ofNat (count - 1))
    have hhigh := toWhole_le_maxWord (fun num den => (num + den - 1) / den) (q * ofNat (count - 1))
    omega
  · obtain ⟨hfinite, hunits⟩ := units_mul_ofNat_le hq hword
    have hlow := toWhole_le (fun num den => num / den) hfinite
      (Nat.div_le_of_le_mul (hunits.trans (Nat.mul_comm ..).le))
    have hhigh := toWhole_le (fun num den => (num + den - 1) / den) hfinite
      (div_up_le unitsPerOne_pos hunits)
    omega

end Double

/-! ## Means -/

section Mean

variable {s : Sample Double}

/-- A zero over a number of values keeps its sign. -/
theorem zeroOf_div_ofNat (negative : Bool) {n : Nat} (hn : n ≠ 0) :
    Double.zeroOf negative / Double.ofNat n = Double.zeroOf negative := by
  have hpos : (Double.ofNat n).code ≠ 0 := Double.code_ofNat_ne_zero hn
  have hfinite : (Double.zeroOf negative).isInfinite = false := rfl
  have hsign : (Double.zeroOf negative).negative = negative := rfl
  have hunits : (Double.zeroOf negative).units = 0 := rfl
  rw [Double.div_eq (Double.nonneg_zeroOf negative) (Double.nonneg_ofNat n) hpos
      (by simp [hfinite]), hfinite, hsign, hunits, Nat.zero_mul, if_neg Bool.false_ne_true]
  split
  · rfl
  · exact Double.ofUnits_zero negative (Double.units_pos hpos)

theorem mean_eq (h : ∃ x ∈ s.values, x ≠ Double.negZero) :
    Scalar.sum s.values / Scalar.ofNat s.size = s.mean :=
  congrArg (· / Scalar.ofNat s.size) (Double.foldl_add_negZero h)

theorem means_of_negZeros (hs : s.values ≠ []) (h : ∀ x ∈ s.values, x = Double.negZero) :
    Scalar.sum s.values / Scalar.ofNat s.size = Double.negZero ∧ s.mean = Double.zero := by
  have hsize := size_ne_zero hs
  have hsum : Scalar.sum s.values = Double.negZero := Double.foldl_add_zeroOf h true
  have hsum' : s.sum = Double.zero := Double.foldl_add_zeroOf h false
  rw [Sample.mean, hsum, hsum']
  exact ⟨zeroOf_div_ofNat true hsize, zeroOf_div_ofNat false hsize⟩

end Mean

/-- Every sample with a value has a summary. It is that of the values and says of each thing what
the sample says, bit for bit but for the mean of negative zeros, and in any other order the values
have the same sample and, but for the mean, the same summary. -/
theorem summary_ofSample (s : Sample Double) (hs : s.values ≠ []) :
    ∃ m, s.summary? = some m ∧ Summary.of? s.values = some m ∧ m.Describes s ∧ m.MeanOf s ∧
      ∀ t : Sample Double, s.values.Perm t.values →
        t.size = s.size ∧ t.min? = s.min? ∧ t.max? = s.max? ∧
          (∀ q, t.quantile? q = s.quantile? q) ∧
          ∃ m', Summary.of? t.values = some m' ∧ m' = { m with mean := m'.mean } := by
  have hsummary : ∀ t : Sample Double, t.values ≠ [] →
      ∃ m, Summary.of? t.values = some m ∧ m.Describes t := by
    intro t ht
    refine exists_summary ht fun q hq => ?_
    have hpart : q.IsPart := by
      simp only [List.mem_cons, List.not_mem_nil, or_false] at hq
      rcases hq with rfl | rfl | rfl | rfl <;> exact ⟨rfl, by decide +kernel⟩
    exact hpart.ranksWithin (size_ne_zero ht)
  obtain ⟨m, hm, hdescribes⟩ := hsummary s hs
  have hmean : m.MeanOf s := ⟨fun h => hdescribes.mean.trans (mean_eq h), fun h => by
    rw [hdescribes.mean]
    exact means_of_negZeros hs h⟩
  refine ⟨m, hm, hm, hdescribes, hmean, fun t hperm => ?_⟩
  have ht : t.values ≠ [] := fun hnil => hs (List.perm_nil.mp (hnil ▸ hperm))
  obtain ⟨m', hm', hdescribes'⟩ := hsummary t ht
  exact ⟨hperm.symm.length_eq, min?_eq_of_perm hs hperm, max?_eq_of_perm hs hperm,
    quantile?_eq_of_perm hperm, m', hm', hdescribes.eq_of_perm hs hperm hdescribes'⟩

/-- Both zeros, an infinity, and a NaN that is the least of all. -/
def mixedSample : Sample Double :=
  ⟨[Double.zero, Double.ofNat 3, Double.nanOf true, Double.negZero, Double.infinityOf false]⟩

/-- The sample in which the two means part. -/
def negZeroSample : Sample Double := ⟨[Double.negZero, Double.negZero]⟩

theorem mixedSample_summary :
    (∃ m, mixedSample.summary? = some m ∧ m.min = Double.nanOf true ∧
      m.max = Double.infinityOf false ∧ m.mean = mixedSample.mean ∧
      ∃ m', Summary.of? mixedSample.values.reverse = some m' ∧ m' = { m with mean := m'.mean }) ∧
    ∃ m, negZeroSample.summary? = some m ∧ m.mean = Double.negZero ∧
      negZeroSample.mean = Double.zero := by
  constructor
  · obtain ⟨m, hm, -, hdescribes, hmean, hperm⟩ := summary_ofSample mixedSample (by decide)
    obtain ⟨-, -, -, -, hreverse⟩ := hperm ⟨mixedSample.values.reverse⟩ (List.reverse_perm _).symm
    have hmin : mixedSample.min? = some (Double.nanOf true) := by decide +kernel
    have hmax : mixedSample.max? = some (Double.infinityOf false) := by decide +kernel
    exact ⟨m, hm, Option.some.inj (hdescribes.min.symm.trans hmin),
      Option.some.inj (hdescribes.max.symm.trans hmax),
      hmean.same ⟨Double.zero, by decide, by decide⟩, hreverse⟩
  · obtain ⟨m, hm, -, -, hmean, -⟩ := summary_ofSample negZeroSample (by decide)
    exact ⟨m, hm, hmean.negZeros (by decide)⟩

end ClusterTrace
