import ClusterTrace.Number.Double

/-!
# Doubles as text

Two ways to write a double. The *fewest digits* that read back to it (`Double.shortest`): of all
decimals in the interval of numbers that round to the double, one with the fewest digits, and among
those the nearest. A `NumberStyle` then lays the digits out, positionally or with an exponent. And a
*fixed number of places* (`Double.fixed`), which rounds the exact value.
-/

namespace ClusterTrace

/-! ## Digits of natural numbers -/

def decimalDigits (n : Nat) : List Char := Nat.toDigits 10 n

def decimalText (n : Nat) : String := String.ofList (decimalDigits n)

def integerText (n : Int) : String :=
  if n < 0 then "-" ++ decimalText n.natAbs else decimalText n.natAbs

/-! ## The fewest digits that read back -/

/-- A positive decimal: its digits, the first of them with the weight `10 ^ exponent`. -/
structure Decimal where
  /-- The digits, from the leading one on; the last is not zero. -/
  digits : List Char
  /-- The weight of the leading digit as a power of ten. -/
  exponent : Int
deriving DecidableEq

namespace Double

/-- Compares `n * 10 ^ k` with `units / 2` units, exactly. -/
def compareDecimal (n : Nat) (k : Int) (doubledUnits : Nat) : Ordering :=
  compare (n * Nat.pow 10 k.toNat * (2 * unitsPerOne)) (doubledUnits * Nat.pow 10 (-k).toNat)

/-- The decimal `n * 10 ^ k` rounds to the size of the given code: it lies between the midpoints to
the two neighbouring codes, and a midpoint itself belongs to the even code. -/
def readsBack (code n : Nat) (k : Int) : Bool :=
  let low := compareDecimal n k (unitsOf (code - 1) + unitsOf code)
  let high := compareDecimal n k (unitsOf code + unitsOf (code + 1))
  let even := code % 2 == 0
  (low == .gt || (even && low == .eq)) && (high == .lt || (even && high == .eq))

/-- The largest multiple of `10 ^ k` that is at most the size of the code, divided by `10 ^ k`. -/
def gridBelow (code : Nat) (k : Int) : Nat :=
  unitsOf code * Nat.pow 10 (-k).toNat / (unitsPerOne * Nat.pow 10 k.toNat)

/-- The multiple of `10 ^ k` next to the size of the code that reads back, if one does: the nearer
of two, and of two equally near ones the even one, or the upper one if halves go up. -/
def gridHit? (halfUp : Bool) (code : Nat) (k : Int) : Option Nat :=
  let n := gridBelow code k
  match readsBack code n k, readsBack code (n + 1) k with
  | false, false => none
  | true, false => some n
  | false, true => some (n + 1)
  | true, true =>
    match compareDecimal (2 * n + 1) k (4 * unitsOf code) with
    | .gt => some n
    | .lt => some (n + 1)
    | .eq => some (if halfUp then n + 1 else n + n % 2)

/-- The power of ten of the leading digit of the size of a positive code. No size is below
`10 ^ -324`. -/
def leadingExponent (code : Nat) : Int :=
  (decimalDigits (unitsOf code * Nat.pow 10 324 / unitsPerOne)).length - 1 - 324

/-- The fewest digits that read back to the size of a positive code. Seventeen digits always do. -/
def shortest (halfUp : Bool) (code : Nat) : Decimal :=
  let lead := leadingExponent code
  let hit := (List.range 17).findSome? fun (i : Nat) =>
    let k := lead - (i : Int)
    (gridHit? halfUp code k).map fun n => (n, k)
  let (n, k) := hit.getD (gridBelow code (lead - 16), lead - 16)
  let digits := decimalDigits n
  { digits := (digits.reverse.dropWhile (· = '0')).reverse
    exponent := k + digits.length - 1 }

end Double

/-! ## Laying digits out -/

/-- The decisions of a format about how the digits of a number are laid out. -/
structure NumberStyle where
  /-- The exponents of the leading digit for which a number is written positionally. -/
  positional : Int → Bool
  /-- What a whole number ends in, such as `.0`. -/
  wholeMark : String
  /-- What stands before a positive exponent. -/
  plusMark : String
  /-- Of two equally near shortest decimals the upper one is taken. -/
  halfUp : Bool

namespace NumberStyle

/-- Digits with a point at the place the exponent asks for. -/
def positionalText (style : NumberStyle) (d : Decimal) : String :=
  if d.exponent < 0 then
    "0." ++ String.ofList (List.replicate ((-d.exponent).toNat - 1) '0' ++ d.digits)
  else
    let places := d.exponent.toNat + 1
    if d.digits.length ≤ places then
      String.ofList (d.digits ++ List.replicate (places - d.digits.length) '0') ++ style.wholeMark
    else
      String.ofList (d.digits.take places) ++ "." ++ String.ofList (d.digits.drop places)

/-- Digits with the point after the first one, and an exponent. -/
def exponentText (style : NumberStyle) (d : Decimal) : String :=
  let mantissa := match d.digits with
    | c :: c' :: rest => String.ofList (c :: '.' :: c' :: rest)
    | digits => String.ofList digits
  let mark := if d.exponent < 0 then "-" else style.plusMark
  mantissa ++ "e" ++ mark ++ decimalText d.exponent.natAbs

/-- The text of the size of a finite double. -/
def sizeText (style : NumberStyle) (code : Nat) : String :=
  if code = 0 then "0" ++ style.wholeMark
  else
    let d := Double.shortest style.halfUp code
    if style.positional d.exponent then style.positionalText d else style.exponentText d

def text (style : NumberStyle) (x : Double) : String :=
  if x.isNaN then "NaN"
  else
    let size := if x.isInfinite then "inf" else style.sizeText x.code
    if x.negative then "-" ++ size else size

/-- Numbers in sentences: always positional, whole numbers without a point. -/
def plain : NumberStyle where
  positional _ := true
  wholeMark := ""
  plusMark := ""
  halfUp := true

end NumberStyle

/-! ## A fixed number of places -/

namespace Double

/-- The size of a code rounded to a number of places after the point, which is at least one. -/
def fixedSize (places code : Nat) : String :=
  let n := roundedQuotient (unitsOf code * Nat.pow 10 places) unitsPerOne
  let digits := decimalDigits (n % Nat.pow 10 places)
  decimalText (n / Nat.pow 10 places) ++ "." ++
    String.ofList (List.replicate (places - digits.length) '0' ++ digits)

/-- A double with a fixed number of places. The exact value is rounded, a half to the even
neighbour, and a negative number keeps its sign when it rounds to zero. -/
def fixed (places : Nat) (x : Double) : String :=
  if x.isNaN then "NaN"
  else
    let size := if x.isInfinite then "inf" else fixedSize places x.code
    if x.negative then "-" ++ size else size

end Double

end ClusterTrace
