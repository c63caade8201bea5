import ClusterTrace.Number.Double

/-!
# Numbers to compute with

What the accounts and the statistics need of a number type. They are written for any such type, so
that the same definitions run on doubles and can be read over exact numbers, where rounding plays no
part.
-/

namespace ClusterTrace

/-- A number type with the operations that accounts and statistics use. -/
class Scalar (α : Type) extends Add α, Sub α, Mul α, Div α where
  /-- Where a running total starts. -/
  zero : α
  /-- Where a sum of a whole list starts: on doubles the negative zero, which is neutral. -/
  negZero : α
  /-- The number nearest to `num / den`. -/
  ofRatio : Nat → Nat → α
  /-- The numeric order. -/
  less : α → α → Bool
  /-- The number is a zero. -/
  isZero : α → Bool
  /-- The order that sorts all values, also those that are not comparable as numbers. -/
  totalLe : α → α → Bool
  /-- The largest natural number that is not above, zero if there is none. -/
  floor : α → Nat
  /-- The least natural number that is not below. -/
  ceil : α → Nat

instance : Scalar Double where
  zero := Double.zero
  negZero := Double.negZero
  ofRatio := Double.ofRatio
  less := Double.less
  isZero := Double.isZero
  totalLe := Double.totalLe
  floor := Double.floor
  ceil := Double.ceil

namespace Scalar

variable {α : Type} [Scalar α]

/-- A natural number. -/
def ofNat (n : Nat) : α := Scalar.ofRatio n 1

/-- The sum of a list from the left. Over doubles the sum of nothing is the negative zero. -/
def sum (xs : List α) : α := xs.foldl (· + ·) negZero

end Scalar

end ClusterTrace
