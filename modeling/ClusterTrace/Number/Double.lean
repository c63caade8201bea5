/-!
# Double-precision numbers

A double is a sign beside a *code*: the eleven bits of the exponent above the 52 bits of the
fraction, read as one natural number. Codes are ordered as the sizes they stand for, the codes of
the infinities and of the NaNs lie above all others, and every finite size is a whole number of
`2 ^ -1074`, the least positive double. An operation computes the exact result in these units and
rounds once, to the nearest code, a half going to the even one (`Double.nearestCode`).
-/

namespace ClusterTrace

/-- A 64-bit binary floating-point number. -/
structure Double where
  /-- The sign bit. -/
  negative : Bool
  /-- Exponent and fraction bits as one number. -/
  code : Nat
  code_lt : code < Nat.pow 2 63
deriving DecidableEq

/-- A quotient rounded to the nearest natural number, a half going to the even one. -/
def roundedQuotient (num den : Nat) : Nat :=
  let floor := num / den
  let rest := num % den
  if 2 * rest < den then floor
  else if den < 2 * rest then floor + 1
  else floor + floor % 2

namespace Double

/-! ## Codes and the sizes they stand for -/

/-- The code of the infinities, the least one that is no finite size. -/
def infinityCode : Nat := 2047 * Nat.pow 2 52

/-- The size a code stands for, in units of `2 ^ -1074`. -/
def unitsOf (code : Nat) : Nat :=
  if code < Nat.pow 2 52 then code
  else (Nat.pow 2 52 + code % Nat.pow 2 52) * Nat.pow 2 (code / Nat.pow 2 52 - 1)

/-- The number one in units of `2 ^ -1074`. -/
def unitsPerOne : Nat := Nat.pow 2 1074

/-- The code nearest to `num / den` units; sizes past the largest finite one give infinity. -/
def nearestCode (num den : Nat) : Nat :=
  let shift := (num / den).log2 - 52
  min infinityCode (shift * Nat.pow 2 52 + roundedQuotient num (den * Nat.pow 2 shift))

theorem nearestCode_le (num den : Nat) : nearestCode num den ≤ infinityCode :=
  Nat.min_le_left ..

/-- The double nearest to `num / den` units. -/
def ofUnits (negative : Bool) (num den : Nat) : Double where
  negative := negative
  code := nearestCode num den
  code_lt := Nat.lt_of_le_of_lt (nearestCode_le num den) (by decide)

/-- The double nearest to `num / den`. -/
def ofRatio (num den : Nat) : Double := ofUnits false (num * unitsPerOne) den

/-- The double nearest to a natural number. -/
def ofNat (n : Nat) : Double := ofRatio n 1

/-- The double nearest to an integer. -/
def ofInt (n : Int) : Double := ofUnits (n < 0) (n.natAbs * unitsPerOne) 1

/-- A zero of the given sign. -/
def zeroOf (negative : Bool) : Double := ⟨negative, 0, by decide⟩

/-- The zero that sums start from when they are counted up one by one. -/
def zero : Double := zeroOf false

/-- The neutral element of addition: a negative zero leaves the sign of the other zero alone. -/
def negZero : Double := zeroOf true

/-- An infinity of the given sign. -/
def infinityOf (negative : Bool) : Double := ⟨negative, infinityCode, by decide⟩

/-- A NaN of the given sign. -/
def nanOf (negative : Bool) : Double := ⟨negative, infinityCode + Nat.pow 2 51, by decide⟩

/-- The result of an operation without one, such as `0 / 0`: a NaN with the sign bit set. -/
def undefined : Double := nanOf true

instance : Inhabited Double := ⟨zero⟩

/-! ## Kinds of doubles -/

def isNaN (x : Double) : Bool := infinityCode < x.code

def isInfinite (x : Double) : Bool := x.code = infinityCode

/-- The double is a number and no infinity. -/
def isFinite (x : Double) : Bool := x.code < infinityCode

/-- The double is a zero of either sign. -/
def isZero (x : Double) : Bool := x.code = 0

/-- The size of a finite double in units of `2 ^ -1074`. -/
def units (x : Double) : Nat := unitsOf x.code

/-- The value of a finite double in units of `2 ^ -1074`. -/
def signedUnits (x : Double) : Int := if x.negative then -(x.units : Int) else x.units

/-! ## Arithmetic -/

/-- The number of the other sign; a NaN changes its sign bit too. -/
def neg (x : Double) : Double := { x with negative := !x.negative }

/-- The sum of two doubles that are no NaN. An exact zero is negative only as the sum of two
negative zeros. -/
def addNumbers (x y : Double) : Double :=
  if x.isInfinite then
    if y.isInfinite && x.negative != y.negative then undefined else x
  else if y.isInfinite then y
  else
    let total := x.signedUnits + y.signedUnits
    if total = 0 then zeroOf (x.negative && y.negative)
    else ofUnits (total < 0) total.natAbs 1

/-- The product of two doubles that are no NaN. -/
def mulNumbers (x y : Double) : Double :=
  let negative := x.negative != y.negative
  if x.isInfinite || y.isInfinite then
    if x.isZero || y.isZero then undefined else infinityOf negative
  else ofUnits negative (x.units * y.units) unitsPerOne

/-- The quotient of two doubles that are no NaN. -/
def divNumbers (x y : Double) : Double :=
  let negative := x.negative != y.negative
  if x.isInfinite then
    if y.isInfinite then undefined else infinityOf negative
  else if y.isInfinite then zeroOf negative
  else if y.isZero then
    if x.isZero then undefined else infinityOf negative
  else ofUnits negative (x.units * unitsPerOne) y.units

/-- An operation on numbers, with the first NaN among its operands passed on as the result. -/
def lift (op : Double → Double → Double) (x y : Double) : Double :=
  if x.isNaN then x else if y.isNaN then y else op x y

instance : Add Double := ⟨lift addNumbers⟩
instance : Sub Double := ⟨lift fun x y => addNumbers x y.neg⟩
instance : Mul Double := ⟨lift mulNumbers⟩
instance : Div Double := ⟨lift divNumbers⟩
instance : Neg Double := ⟨neg⟩

/-! ## Order -/

/-- The place of a number among the numbers; the two zeros share one. -/
def rank (x : Double) : Int := if x.negative then -(x.code : Int) else x.code

/-- The numeric order: a NaN is below and above nothing, and the two zeros are equal. -/
def less (x y : Double) : Bool := !x.isNaN && !y.isNaN && x.rank < y.rank

/-- The place of a double in the total order of all bit patterns. -/
def totalRank (x : Double) : Int := if x.negative then -(x.code : Int) - 1 else x.code

/-- The total order: negative NaNs, then the numbers with `-0` before `0`, then positive NaNs. -/
def totalLe (x y : Double) : Bool := x.totalRank ≤ y.totalRank

/-! ## Whole numbers -/

/-- The largest natural number of 64 bits. -/
def maxWord : Nat := Nat.pow 2 64 - 1

/-- A whole number of units as a number of ones rounded by `quotient`, kept within 64 bits. Negative
numbers and NaNs count as zero. -/
def toWhole (quotient : Nat → Nat → Nat) (x : Double) : Nat :=
  if x.isNaN || x.negative then 0
  else if x.isInfinite then maxWord
  else min maxWord (quotient x.units unitsPerOne)

/-- The largest natural number that is not above the double. -/
def floor (x : Double) : Nat := x.toWhole fun num den => num / den

/-- The least natural number that is not below the double. -/
def ceil (x : Double) : Nat := x.toWhole fun num den => (num + den - 1) / den

def isWhole (x : Double) : Bool := x.isFinite && x.units % unitsPerOne = 0

end Double

end ClusterTrace
