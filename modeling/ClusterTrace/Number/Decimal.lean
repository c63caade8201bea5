import ClusterTrace.Number.Double

/-!
# Numbers in text

The written forms of natural numbers, integers and doubles that rows, flags and documents use. Only
the digits `0` to `9` count, and no form allows blanks, underscores or other bases.

* A natural number is a non-empty run of digits, perhaps after a plus sign.
* An integer may have either sign.
* A double is an infinity or a NaN by name, in any case, or a run of digits with at most one point
  and perhaps an exponent; there is a digit on at least one side of the point. The value is the
  double nearest to the number written.
-/

namespace ClusterTrace

/-! ## Runs of digits -/

def digitValue (c : Char) : Nat := c.toNat - '0'.toNat

/-- The number that a run of digits stands for, read from its start. -/
def numeral (digits : List Char) : Nat :=
  digits.foldl (fun n c => 10 * n + digitValue c) 0

/-- The number written by a non-empty run of digits. -/
def numeral? (s : List Char) : Option Nat :=
  if s ≠ [] ∧ s.all Char.isDigit then some (numeral s) else none

/-- The number at the start of a text, without what follows its digits. -/
def leadingNumeral? (s : List Char) : Option Nat :=
  numeral? (s.takeWhile Char.isDigit)

/-- A sign in front of a text: whether it is a minus, and the rest. -/
def splitSign : List Char → Bool × List Char
  | '-' :: s => (true, s)
  | '+' :: s => (false, s)
  | s => (false, s)

/-! ## Whole numbers of 64 bits -/

/-- Keeps the numbers of 64 bits. -/
def fitting (n : Nat) : Option Nat :=
  if n ≤ Double.maxWord then some n else none

/-- Reads a natural number of 64 bits. -/
def readNatural? (s : String) : Option Nat :=
  match s.toList with
  | '+' :: digits => (numeral? digits).bind fitting
  | digits => (numeral? digits).bind fitting

/-- Reads a signed integer of 64 bits. -/
def readInteger? (s : String) : Option Int :=
  let (negative, digits) := splitSign s.toList
  (numeral? digits).bind fun n =>
    if negative then
      if n ≤ Nat.pow 2 63 then some (-(n : Int)) else none
    else
      if n < Nat.pow 2 63 then some (n : Int) else none

/-! ## Doubles -/

namespace Double

/-- The double nearest to `mantissa * 10 ^ exponent`, with a sign. Far outside the range of doubles
the answer is known without computing the power: every size from `10 ^ 400` on overflows, and a
mantissa of `k` bits is below `10 ^ (k / 3 + 1)`. -/
def ofScientific (negative : Bool) (mantissa : Nat) (exponent : Int) : Double :=
  if mantissa = 0 then zeroOf negative
  else if 400 < exponent then infinityOf negative
  else if exponent + (mantissa.log2 / 3 + 1 : Nat) < -400 then zeroOf negative
  else if 0 ≤ exponent then ofUnits negative (mantissa * Nat.pow 10 exponent.toNat * unitsPerOne) 1
  else ofUnits negative (mantissa * unitsPerOne) (Nat.pow 10 (-exponent).toNat)

/-- The exponent at the end of a written number: nothing, or the letter `e` and an integer. -/
def readExponent? : List Char → Option Int
  | [] => some 0
  | c :: s =>
    if c = 'e' ∨ c = 'E' then
      let (negative, digits) := splitSign s
      (numeral? digits).map fun n => if negative then -(n : Int) else n
    else none

/-- Reads digits, a point, digits and an exponent. -/
def readPositional? (negative : Bool) (s : List Char) : Option Double :=
  let whole := s.takeWhile Char.isDigit
  let rest := s.dropWhile Char.isDigit
  let (part, rest) := match rest with
    | '.' :: rest => (rest.takeWhile Char.isDigit, rest.dropWhile Char.isDigit)
    | rest => ([], rest)
  if whole.isEmpty && part.isEmpty then none
  else (readExponent? rest).map fun exponent =>
    ofScientific negative (numeral (whole ++ part)) (exponent - part.length)

def read? (s : String) : Option Double :=
  let (negative, rest) := splitSign s.toList
  let name := rest.map Char.toLower
  if name = "inf".toList ∨ name = "infinity".toList then some (infinityOf negative)
  else if name = "nan".toList then some (nanOf negative)
  else readPositional? negative rest

end Double

end ClusterTrace
