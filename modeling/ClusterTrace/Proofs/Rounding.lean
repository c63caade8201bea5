import ClusterTrace.Number.Double
import Mathlib.Tactic.Linarith
import Mathlib.Tactic.Ring

/-!
# Rounding keeps the order

A quotient is rounded to the code whose size is nearest. A larger quotient never gets a smaller code
(`nearestCode_mono`), and a size that has a code gets that code (`nearestCode_unitsOf`); all that is
used of rounding elsewhere follows from the two.
-/

namespace ClusterTrace

/-! ## Quotients rounded to natural numbers -/

/-- The rounded quotient is at most half a unit off, and even if it is just that. -/
theorem roundedQuotient_near {den : Nat} (hden : 0 < den) (num : Nat) :
    2 * (den * roundedQuotient num den) ≤ 2 * num + den ∧
      2 * num ≤ 2 * (den * roundedQuotient num den) + den ∧
      (2 * (den * roundedQuotient num den) = 2 * num + den ∨
        2 * num = 2 * (den * roundedQuotient num den) + den → roundedQuotient num den % 2 = 0) := by
  have hnum := Nat.div_add_mod num den
  have hrest := Nat.mod_lt num hden
  unfold roundedQuotient
  generalize num / den = floor at *
  generalize num % den = rest at *
  have hsucc : den * (floor + 1) = den * floor + den := Nat.mul_succ den floor
  dsimp only
  split
  · refine ⟨by omega, by omega, fun h => by omega⟩
  · split
    · rw [hsucc]
      refine ⟨by omega, by omega, fun h => by omega⟩
    · rcases Nat.mod_two_eq_zero_or_one floor with heven | hodd
      · rw [heven, Nat.add_zero]
        exact ⟨by omega, by omega, fun _ => heven⟩
      · rw [hodd, hsucc]
        exact ⟨by omega, by omega, fun _ => by omega⟩

theorem roundedQuotient_mul {den : Nat} (hden : 0 < den) (n : Nat) :
    roundedQuotient (n * den) den = n := by
  rw [roundedQuotient, Nat.mul_div_cancel n hden, Nat.mul_mod_left]
  exact if_pos (by omega)

theorem roundedQuotient_mono {num den num' den' : Nat} (hden : 0 < den) (hden' : 0 < den')
    (hle : num * den' ≤ num' * den) : roundedQuotient num den ≤ roundedQuotient num' den' := by
  obtain ⟨hlow, -, heven⟩ := roundedQuotient_near hden num
  obtain ⟨-, hhigh, heven'⟩ := roundedQuotient_near hden' num'
  generalize roundedQuotient num den = n at *
  generalize roundedQuotient num' den' = n' at *
  by_contra hlt
  have hprod : 0 < den * den' := Nat.mul_pos hden hden'
  have h1 : 2 * (den * den' * n) ≤ 2 * (num * den') + den * den' := by
    have := Nat.mul_le_mul_right den' hlow
    linarith
  have h2 : 2 * (num' * den) ≤ 2 * (den * den' * n') + den * den' := by
    have := Nat.mul_le_mul_right den hhigh
    linarith
  have hnext : n = n' + 1 := by
    have : den * den' * n ≤ den * den' * (n' + 1) := by rw [Nat.mul_succ]; omega
    have := Nat.le_of_mul_le_mul_left this hprod
    omega
  -- Both quotients lie half-way between `n'` and its successor, so both of these are even.
  rw [hnext, Nat.mul_succ] at h1
  have htie : 2 * (den * n) = 2 * num + den := by
    refine Nat.eq_of_mul_eq_mul_right hden' ?_
    rw [hnext]
    linarith
  have htie' : 2 * num' = 2 * (den' * n') + den' := by
    refine Nat.eq_of_mul_eq_mul_right hden ?_
    linarith
  have := heven (Or.inl htie)
  have := heven' (Or.inr htie')
  omega

theorem roundedQuotient_scale {scale : Nat} (hscale : 0 < scale) (num den : Nat) :
    roundedQuotient (num * scale) (den * scale) = roundedQuotient num den := by
  have hrest : 2 * (num % den * scale) = 2 * (num % den) * scale := (Nat.mul_assoc ..).symm
  unfold roundedQuotient
  simp only [Nat.mul_div_mul_right num den hscale, Nat.mul_mod_mul_right, hrest,
    Nat.mul_lt_mul_right hscale]

theorem roundedQuotient_le {num den n : Nat} (hden : 0 < den) (hle : num ≤ n * den) :
    roundedQuotient num den ≤ n := by
  rw [← roundedQuotient_mul hden n]
  exact roundedQuotient_mono hden hden (Nat.mul_le_mul_right den hle)

theorem le_roundedQuotient {num den n : Nat} (hden : 0 < den) (hle : n * den ≤ num) :
    n ≤ roundedQuotient num den := by
  rw [← roundedQuotient_mul hden n]
  exact roundedQuotient_mono hden hden (Nat.mul_le_mul_right den hle)

namespace Double

/-! ## Codes -/

/-- How far a quotient is shifted to have a significand of 53 bits. -/
def shiftOf (num den : Nat) : Nat := (num / den).log2 - 52

theorem pow_two_pos (k : Nat) : 0 < Nat.pow 2 k := Nat.pow_pos (by decide)

theorem pow_two_add (k m : Nat) : Nat.pow 2 (k + m) = Nat.pow 2 k * Nat.pow 2 m :=
  Nat.pow_add 2 k m

theorem shiftOf_mono {num den num' den' : Nat} (hden : 0 < den) (hden' : 0 < den')
    (hle : num * den' ≤ num' * den) : shiftOf num den ≤ shiftOf num' den' := by
  have hquot : num / den ≤ num' / den' := by
    rw [Nat.le_div_iff_mul_le hden']
    refine Nat.le_of_mul_le_mul_right ?_ hden
    have := Nat.mul_le_mul_right den' (Nat.div_mul_le_self num den)
    linarith
  unfold shiftOf
  by_cases hzero : num / den = 0
  · rw [hzero, Nat.log2_zero]
    omega
  · have hzero' : num' / den' ≠ 0 := fun h => hzero (Nat.le_zero.mp (h ▸ hquot))
    have hlog : (num / den).log2 ≤ (num' / den').log2 :=
      (Nat.le_log2 hzero').mpr ((Nat.log2_self_le hzero).trans hquot)
    omega

/-- The significand has no more than 53 bits, or else is the next power of two. -/
theorem roundedQuotient_shiftOf_le {den : Nat} (hden : 0 < den) (num : Nat) :
    roundedQuotient num (den * Nat.pow 2 (shiftOf num den)) ≤ 2 * Nat.pow 2 52 := by
  refine roundedQuotient_le (Nat.mul_pos hden (pow_two_pos _)) ?_
  have hlog : num / den < Nat.pow 2 (53 + shiftOf num den) :=
    Nat.lt_of_lt_of_le Nat.lt_log2_self
      (Nat.pow_le_pow_right (by decide) (by unfold shiftOf; omega))
  rw [pow_two_add] at hlog
  have hlt : num < den * (num / den + 1) := Nat.lt_mul_div_succ num hden
  calc num ≤ den * (num / den + 1) := hlt.le
    _ ≤ den * (Nat.pow 2 53 * Nat.pow 2 (shiftOf num den)) :=
      Nat.mul_le_mul_left den (Nat.succ_le_of_lt hlog)
    _ = 2 * Nat.pow 2 52 * (den * Nat.pow 2 (shiftOf num den)) := Nat.mul_left_comm ..

/-- The significand of a quotient that is shifted has 53 bits. -/
theorem le_roundedQuotient_shiftOf {num den : Nat} (hden : 0 < den) (hshift : 0 < shiftOf num den) :
    Nat.pow 2 52 ≤ roundedQuotient num (den * Nat.pow 2 (shiftOf num den)) := by
  refine le_roundedQuotient (Nat.mul_pos hden (pow_two_pos _)) ?_
  have hlog : (num / den).log2 = 52 + shiftOf num den := by unfold shiftOf at *; omega
  have hzero : num / den ≠ 0 := by
    intro hzero
    rw [hzero, Nat.log2_zero] at hlog
    omega
  have hle : Nat.pow 2 (52 + shiftOf num den) ≤ num / den := by
    rw [← hlog]
    exact Nat.log2_self_le hzero
  rw [pow_two_add] at hle
  calc Nat.pow 2 52 * (den * Nat.pow 2 (shiftOf num den))
      = den * (Nat.pow 2 52 * Nat.pow 2 (shiftOf num den)) := Nat.mul_left_comm ..
    _ ≤ den * (num / den) := Nat.mul_le_mul_left den hle
    _ ≤ num := Nat.mul_div_le num den

theorem nearestCode_mono {num den num' den' : Nat} (hden : 0 < den) (hden' : 0 < den')
    (hle : num * den' ≤ num' * den) : nearestCode num den ≤ nearestCode num' den' := by
  have hshift := shiftOf_mono hden hden' hle
  refine min_le_min_left _ ?_
  change shiftOf num den * _ + roundedQuotient num (den * Nat.pow 2 (shiftOf num den)) ≤
    shiftOf num' den' * _ + roundedQuotient num' (den' * Nat.pow 2 (shiftOf num' den'))
  rcases Nat.eq_or_lt_of_le hshift with heq | hlt
  · rw [← heq]
    refine Nat.add_le_add_left (roundedQuotient_mono (Nat.mul_pos hden (pow_two_pos _))
      (Nat.mul_pos hden' (pow_two_pos _)) ?_) _
    calc num * (den' * Nat.pow 2 (shiftOf num den))
        = num * den' * Nat.pow 2 (shiftOf num den) := (Nat.mul_assoc ..).symm
      _ ≤ num' * den * Nat.pow 2 (shiftOf num den) := Nat.mul_le_mul_right _ hle
      _ = num' * (den * Nat.pow 2 (shiftOf num den)) := Nat.mul_assoc ..
  · have hlow := roundedQuotient_shiftOf_le hden num
    have hhigh := le_roundedQuotient_shiftOf hden' (Nat.zero_lt_of_lt hlt)
    have hstep := Nat.mul_le_mul_right (Nat.pow 2 52) (Nat.succ_le_of_lt hlt)
    rw [Nat.succ_mul] at hstep
    omega

theorem nearestCode_scale {scale den : Nat} (hscale : 0 < scale) (hden : 0 < den) (num : Nat) :
    nearestCode (num * scale) (den * scale) = nearestCode num den := by
  have hpos := Nat.mul_pos hden hscale
  have hcross : num * scale * den = num * (den * scale) := by
    rw [Nat.mul_assoc, Nat.mul_comm scale]
  exact Nat.le_antisymm (nearestCode_mono hpos hden hcross.le)
    (nearestCode_mono hden hpos hcross.ge)

/-! ## Sizes -/

/-- A code from `2 ^ 52` on stands for a significand of 53 bits, shifted. -/
theorem exists_significand {code : Nat} (h : Nat.pow 2 52 ≤ code) :
    ∃ shift part, part < Nat.pow 2 52 ∧ code = (shift + 1) * Nat.pow 2 52 + part ∧
      unitsOf code = (Nat.pow 2 52 + part) * Nat.pow 2 shift := by
  have hpos := pow_two_pos 52
  obtain ⟨shift, hshift⟩ := Nat.exists_eq_succ_of_ne_zero (Nat.div_pos h hpos).ne'
  refine ⟨shift, code % Nat.pow 2 52, Nat.mod_lt _ hpos, ?_, ?_⟩
  · rw [← Nat.succ_eq_add_one, ← hshift]
    exact (Nat.div_add_mod' code _).symm
  · rw [unitsOf, if_neg (Nat.not_lt.mpr h), hshift]
    rfl

/-- The code of a significand of 53 bits, also of one that was rounded up to the next power of two.
-/
theorem unitsOf_shifted {shift significand : Nat} (hle : significand ≤ 2 * Nat.pow 2 52)
    (hge : 0 < shift → Nat.pow 2 52 ≤ significand) :
    unitsOf (shift * Nat.pow 2 52 + significand) = significand * Nat.pow 2 shift := by
  have hpos := pow_two_pos 52
  rcases Nat.lt_or_ge significand (Nat.pow 2 52) with hlt | hle'
  · have hshift : shift = 0 := by
      by_contra hne
      have := hge (Nat.pos_of_ne_zero hne)
      omega
    rw [hshift, Nat.zero_mul, Nat.zero_add, unitsOf, if_pos hlt]
    exact (Nat.mul_one significand).symm
  · obtain ⟨part, rfl⟩ := Nat.exists_eq_add_of_le hle'
    have hcode : shift * Nat.pow 2 52 + (Nat.pow 2 52 + part) =
        part + (shift + 1) * Nat.pow 2 52 := by
      rw [Nat.succ_mul]
      omega
    have hlarge : ¬ part + (shift + 1) * Nat.pow 2 52 < Nat.pow 2 52 := by
      rw [Nat.succ_mul]
      omega
    rw [hcode, unitsOf, if_neg hlarge, Nat.add_mul_mod_self_right, Nat.add_mul_div_right _ _ hpos]
    rcases Nat.lt_or_ge part (Nat.pow 2 52) with hpart | hpart
    · rw [Nat.mod_eq_of_lt hpart, Nat.div_eq_of_lt hpart, Nat.zero_add, Nat.add_sub_cancel]
    · have hnext : part = Nat.pow 2 52 := by omega
      have hdouble : Nat.pow 2 (shift + 1) = Nat.pow 2 shift * 2 := rfl
      rw [hnext, Nat.mod_self, Nat.div_self hpos, Nat.add_comm 1, Nat.add_sub_cancel, hdouble]
      ring

/-- A finite code stands for the rounded significand with its shift. -/
theorem unitsOf_nearestCode {num den : Nat} (hden : 0 < den)
    (hfinite : nearestCode num den < infinityCode) : unitsOf (nearestCode num den) =
      roundedQuotient num (den * Nat.pow 2 (shiftOf num den)) * Nat.pow 2 (shiftOf num den) := by
  have hcode : nearestCode num den = shiftOf num den * Nat.pow 2 52 +
      roundedQuotient num (den * Nat.pow 2 (shiftOf num den)) := by
    refine (min_choice _ _).resolve_left fun hinfinite => ?_
    exact absurd hinfinite hfinite.ne
  rw [hcode]
  exact unitsOf_shifted (roundedQuotient_shiftOf_le hden num) (le_roundedQuotient_shiftOf hden)

theorem unitsOf_mono {code code' : Nat} (h : code ≤ code') : unitsOf code ≤ unitsOf code' := by
  have hsmall : ∀ {code}, code < Nat.pow 2 52 → unitsOf code = code := fun h => if_pos h
  rcases Nat.lt_or_ge code' (Nat.pow 2 52) with hlt' | hge'
  · rw [hsmall hlt', hsmall (Nat.lt_of_le_of_lt h hlt')]
    exact h
  · obtain ⟨shift', part', hpart', hcode', hunits'⟩ := exists_significand hge'
    rw [hunits']
    rcases Nat.lt_or_ge code (Nat.pow 2 52) with hlt | hge
    · rw [hsmall hlt]
      calc code ≤ Nat.pow 2 52 + part' := by omega
        _ ≤ _ := Nat.le_mul_of_pos_right _ (pow_two_pos shift')
    · obtain ⟨shift, part, hpart, hcode, hunits⟩ := exists_significand hge
      rw [hunits]
      rcases Nat.lt_or_ge shift shift' with hlt | hle
      · calc (Nat.pow 2 52 + part) * Nat.pow 2 shift
            ≤ Nat.pow 2 52 * 2 * Nat.pow 2 shift := Nat.mul_le_mul_right _ (by omega)
          _ = Nat.pow 2 52 * Nat.pow 2 (shift + 1) := by
            rw [Nat.mul_assoc, Nat.mul_comm 2]; rfl
          _ ≤ (Nat.pow 2 52 + part') * Nat.pow 2 shift' :=
            Nat.mul_le_mul (Nat.le_add_right ..) (Nat.pow_le_pow_right (by decide) hlt)
      · have hshift : shift = shift' := by
          have : (shift + 1) * Nat.pow 2 52 < (shift' + 2) * Nat.pow 2 52 := by
            rw [Nat.succ_mul (shift' + 1)]
            omega
          have := Nat.lt_of_mul_lt_mul_right this
          omega
        subst hshift
        exact Nat.mul_le_mul_right _ (by omega)

/-- A size is rounded to its own code. A code below `2 ^ 52` is its own size, and one from there on
is a significand of 53 bits and a shift. -/
theorem nearestCode_unitsOf {code : Nat} (h : code ≤ infinityCode) {den : Nat} (hden : 0 < den) :
    nearestCode (unitsOf code * den) den = code := by
  have hnearest : nearestCode (unitsOf code * den) den = min infinityCode
      (((unitsOf code).log2 - 52) * Nat.pow 2 52 + roundedQuotient (unitsOf code * den)
        (den * Nat.pow 2 ((unitsOf code).log2 - 52))) := by
    rw [nearestCode, Nat.mul_div_cancel _ hden]
  rw [hnearest]
  refine (congrArg _ ?_).trans (Nat.min_eq_right h)
  rcases Nat.lt_or_ge code (Nat.pow 2 52) with hlt | hge
  · have hunits : unitsOf code = code := if_pos hlt
    have hlog : code.log2 - 52 = 0 := by
      by_cases hzero : code = 0
      · rw [hzero, Nat.log2_zero]
      · have := (Nat.log2_lt hzero).mpr hlt
        omega
    rw [hunits, hlog, Nat.zero_mul, Nat.zero_add]
    exact (congrArg _ (Nat.mul_one den)).trans (roundedQuotient_mul hden code)
  · obtain ⟨shift, part, hpart, hcode, hunits⟩ := exists_significand hge
    have hpos : unitsOf code ≠ 0 := by
      rw [hunits]
      exact (Nat.mul_pos (Nat.add_pos_left (pow_two_pos 52) part) (pow_two_pos shift)).ne'
    have hlog : (unitsOf code).log2 = 52 + shift := by
      refine (Nat.log2_eq_iff hpos).mpr ⟨?_, ?_⟩
      · rw [hunits]
        exact (pow_two_add 52 shift).le.trans (Nat.mul_le_mul_right _ (Nat.le_add_right ..))
      · rw [hunits, Nat.add_right_comm]
        refine Nat.lt_of_lt_of_eq ?_ (pow_two_add 53 shift).symm
        have hdouble : Nat.pow 2 53 = Nat.pow 2 52 * 2 := rfl
        exact Nat.mul_lt_mul_of_pos_right (by omega) (pow_two_pos shift)
    have hwhole : (Nat.pow 2 52 + part) * Nat.pow 2 shift * den =
        (Nat.pow 2 52 + part) * (den * Nat.pow 2 shift) := by
      rw [Nat.mul_assoc, Nat.mul_comm den]
    rw [hlog, Nat.add_sub_cancel_left, hunits, hwhole,
      roundedQuotient_mul (Nat.mul_pos hden (pow_two_pos shift)), hcode, Nat.succ_mul]
    exact (Nat.add_assoc ..).symm

end Double

end ClusterTrace
