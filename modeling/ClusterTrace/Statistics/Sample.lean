import ClusterTrace.Number.Scalar

/-!
# Samples

Descriptive statistics of a list of numbers in order of arrival. Extremes and quantiles go by the
total order, so they are defined for samples with NaNs too. A quantile interpolates between the two
values around its rank.

A `Summary` gives a sample in a few numbers. Its mean starts from the neutral zero, the mean of a
`Sample` from the positive one.
-/

namespace ClusterTrace

/-- Numbers in order of arrival. -/
structure Sample (α : Type) where
  values : List α
deriving DecidableEq

variable {α : Type} [Scalar α]

/-- The values in the total order; equal ones keep their order. -/
def sorted (values : List α) : List α := values.mergeSort Scalar.totalLe

/-- A number moved into the range from zero to one. -/
def clampUnit (q : α) : α :=
  let one : α := Scalar.ofNat 1
  let q := if Scalar.less q Scalar.zero then Scalar.zero else q
  if Scalar.less one q then one else q

/-- The place of a quantile among `count` sorted values, as a number from zero on. -/
def quantilePosition (count : Nat) (q : α) : α := clampUnit q * Scalar.ofNat (count - 1)

/-- The quantile of sorted values: a point between the two values around its position. -/
def quantileOfSorted? (sorted : List α) (q : α) : Option α :=
  let position := quantilePosition sorted.length q
  let low := Scalar.floor position
  match sorted[low]?, sorted[Scalar.ceil position]? with
  | some below, some above => some (below + (above - below) * (position - Scalar.ofNat low))
  | _, _ => none

/-- The smaller of two values in the total order, the first of two equal ones. -/
def lower (x y : α) : α := if Scalar.totalLe x y then x else y

/-- The larger of two values in the total order, the last of two equal ones. -/
def upper (x y : α) : α := if Scalar.totalLe x y then y else x

namespace Sample

/-- Adds a number at the end. -/
def add (s : Sample α) (x : α) : Sample α := ⟨s.values ++ [x]⟩

def size (s : Sample α) : Nat := s.values.length

def sum (s : Sample α) : α := s.values.foldl (· + ·) Scalar.zero

/-- The mean of the values, which is no number for an empty sample. -/
def mean (s : Sample α) : α := s.sum / Scalar.ofNat s.size

/-- The least value. -/
def min? (s : Sample α) : Option α :=
  match s.values with
  | [] => none
  | x :: rest => some (rest.foldl lower x)

/-- The largest value. -/
def max? (s : Sample α) : Option α :=
  match s.values with
  | [] => none
  | x :: rest => some (rest.foldl upper x)

/-- The mean of the squared distances from the mean. -/
def biasedVariance (s : Sample α) : α :=
  let mean := s.mean
  Scalar.sum (s.values.map fun x => (x - mean) * (x - mean)) / Scalar.ofNat s.size

/-- The variance estimated for what the sample was drawn from. -/
def unbiasedVariance (s : Sample α) : α :=
  let n : α := Scalar.ofNat s.size
  s.biasedVariance * n / (n - Scalar.ofNat 1)

def quantile? (s : Sample α) (q : α) : Option α := quantileOfSorted? (sorted s.values) q

end Sample

/-- A sample in a few numbers. -/
structure Summary (α : Type) where
  /-- The number of values. -/
  count : Nat
  mean : α
  min : α
  /-- The quantile of a quarter. -/
  p25 : α
  /-- The quantile of a half. -/
  median : α
  /-- The quantile of three quarters. -/
  p75 : α
  /-- The quantile of nineteen twentieths. -/
  p95 : α
  max : α
deriving DecidableEq

/-- The summary of values, if there are any. -/
def Summary.of? (values : List α) : Option (Summary α) := do
  let ordered := sorted values
  let min ← ordered.head?
  let max ← ordered.getLast?
  let p25 ← quantileOfSorted? ordered (Scalar.ofRatio 1 4)
  let median ← quantileOfSorted? ordered (Scalar.ofRatio 1 2)
  let p75 ← quantileOfSorted? ordered (Scalar.ofRatio 3 4)
  let p95 ← quantileOfSorted? ordered (Scalar.ofRatio 95 100)
  let mean := Scalar.sum values / Scalar.ofNat values.length
  return { count := values.length, mean, min, p25, median, p75, p95, max }

def Sample.summary? (s : Sample α) : Option (Summary α) := Summary.of? s.values

end ClusterTrace
