import ClusterTrace.Number.Scalar
import Mathlib.Algebra.Order.Field.Rat

/-!
# Exact numbers

Fractions as numbers to compute with. The accounts and the statistics, read over fractions, are what
they would be if no operation on doubles rounded, overflowed or failed; there is one zero only.
-/

namespace ClusterTrace

instance : Scalar ℚ where
  zero := 0
  negZero := 0
  ofRatio num den := (num : ℚ) / den
  less x y := x < y
  isZero x := x = 0
  totalLe x y := x ≤ y
  floor x := x.floor.toNat
  ceil x := x.ceil.toNat

namespace Scalar

theorem ofRatio_exact (num den : Nat) : (ofRatio num den : ℚ) = num / den := rfl

theorem ofNat_exact (n : Nat) : (ofNat n : ℚ) = n := div_one _

/-- There is one zero only, so it does not matter from where a sum starts. -/
theorem sum_exact (xs : List ℚ) : sum xs = xs.sum := List.sum_eq_foldl.symm

end Scalar

end ClusterTrace
