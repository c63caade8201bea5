import ClusterTrace.Number.Decimal

/-!
# Numbers in digits

What a run of digits is read as. The readers of natural numbers differ in what they allow around the
digits, but all of them refuse a number of more than 64 bits.
-/

namespace ClusterTrace

/-- The text is a run of digits, and this is its value. -/
structure IsNumeral (text : List Char) (n : Nat) : Prop where
  nonempty : text ≠ []
  digits : ∀ c ∈ text, c.isDigit = true
  value : Nat.ofDigitChars 10 text 0 = n

variable {text : List Char} {n m : Nat}

/-- A numeral is read from digits alone, of which there must be one at least. Zeros in front do not
matter. -/
theorem numeral?_eq_some_iff : numeral? text = some n ↔ IsNumeral text n := by
  unfold numeral?
  constructor
  · intro h
    split at h
    next hdigits => exact ⟨hdigits.1, List.all_eq_true.mp hdigits.2, Option.some.inj h⟩
    next => cases h
  · rintro ⟨hne, hdigits, hvalue⟩
    rw [if_pos ⟨hne, List.all_eq_true.mpr hdigits⟩]
    exact congrArg some hvalue

theorem Double.le_maxWord_iff : n ≤ maxWord ↔ n < Nat.pow 2 64 := Nat.lt_succ_iff.symm

/-- A number fits if it has no more than 64 bits. It is not cut off. -/
theorem fitting_eq_some_iff : fitting n = some m ↔ n = m ∧ n < Nat.pow 2 64 := by
  rw [← Double.le_maxWord_iff, fitting]
  split
  next hle => simp only [Option.some.injEq, hle, and_true]
  next hlarge => simp only [reduceCtorEq, hlarge, and_false]

/-- Every reader of natural numbers reads a numeral of 64 bits and nothing else. -/
theorem numeral?_bind_fitting_eq_some_iff :
    (numeral? text).bind fitting = some n ↔ IsNumeral text n ∧ n < Nat.pow 2 64 := by
  simp only [Option.bind_eq_some_iff, numeral?_eq_some_iff, fitting_eq_some_iff]
  constructor
  · rintro ⟨_, hdigits, rfl, hbound⟩
    exact ⟨hdigits, hbound⟩
  · rintro ⟨hdigits, hbound⟩
    exact ⟨n, hdigits, rfl, hbound⟩

end ClusterTrace
