import ClusterTrace.Proofs.TraceRows
import ClusterTrace.Proofs.WholeNumbers
import ClusterTrace.Trace.Metrics

/-!
# The counts of task graphs

The counts in a row of statistics are read as doubles, since some of them are written that way. A
whole number of 64 bits in digits is always accepted, but only 53 bits of its significand are kept:
the counts of a row are those that are written exactly if all of them have no more, or are the
largest number of 64 bits, to which the next double above it is cut back.
-/

namespace ClusterTrace

open Double

/-- The parameter at an index is a number of 64 bits in digits. -/
def Event.HoldsNumeral (e : Event) (index n : Nat) : Prop :=
  ∃ text, e.params[index]? = some text ∧ IsNumeral text.toList n ∧ n < Nat.pow 2 64

/-- The number of 64 bits is kept when it is read as a double. -/
def IsKept (n : Nat) : Prop := IsShort n ∨ n = maxWord

/-- The count that is read for a number: the nearest one with a significand of 53 bits, unless that
is past 64 bits. -/
structure IsCountOf (n count : Nat) : Prop where
  nearest : ∃ short, IsShort short ∧ count = min maxWord short ∧
    ∀ other, IsShort other → ((short : Int) - n).natAbs ≤ ((other : Int) - n).natAbs
  exact_iff : count = n ↔ IsKept n

variable {e : Event} {n : Nat}

/-- A number of 64 bits that is read as a double and rounded down is the nearest one that a double
can be, or the largest of 64 bits. -/
theorem isCountOf_floor (hn : n ≤ maxWord) : IsCountOf n (ofNat n).floor := by
  have hlast : min maxWord (nearestWhole maxWord) = maxWord := by decide +kernel
  rw [floor_ofNat hn]
  refine ⟨⟨nearestWhole n, isShort_nearestWhole n, rfl, fun _ => nearestWhole_closest⟩, ?_⟩
  constructor
  · intro h
    rcases Nat.lt_or_ge maxWord (nearestWhole n) with hlt | hle
    · rw [Nat.min_eq_left hlt.le] at h
      exact .inr h.symm
    · rw [Nat.min_eq_right hle] at h
      exact .inl (nearestWhole_eq_self_iff.mp h)
  · rintro (hshort | rfl)
    · rw [nearestWhole_eq_self_iff.mpr hshort, Nat.min_eq_right hn]
    · exact hlast

namespace Event

/-- A field that holds a numeral is read as such a count. -/
theorem parseCount_of_holdsNumeral {index : Nat} (h : e.HoldsNumeral index n) (field : String) :
    ∃ count, e.parseCount index field = .ok count ∧ IsCountOf n count := by
  obtain ⟨text, htext, hnumeral, hbound⟩ := h
  have hn : n ≤ maxWord := le_maxWord_iff.mpr hbound
  have haccepted : ((ofNat n).isWhole && !(ofNat n).less zero) = true := by
    rw [isWhole_ofNat hn, less_ofNat_zero]
    rfl
  refine ⟨(ofNat n).floor, ?_, isCountOf_floor hn⟩
  simp [parseCount, param, htext, parse, read?_of_isNumeral hnumeral, Except.bind, haccepted]

/-- The total is the sum of those that finished and those that were cancelled, as far as 64 bits
go. -/
theorem parseCounts_eq_ok {finished cancelled missed : Nat}
    (hfinished : e.parseCount 3 "finished" = .ok finished)
    (hcancelled : e.parseCount 4 "cancelled" = .ok cancelled)
    (hmissed : e.parseCount 5 "missed_deadline" = .ok missed) :
    e.parseCounts = .ok ⟨min maxWord (finished + cancelled), finished, cancelled, missed⟩ := by
  rw [parseCounts, hfinished, hcancelled, hmissed]
  rfl

end Event

/-- Counts in digits are always read, each as the nearest number that a double holds. They are what
is written, with the sum as the total, exactly if a double holds all of them. -/
theorem counts_rounded {finished cancelled missed : Nat} (hfinished : e.HoldsNumeral 3 finished)
    (hcancelled : e.HoldsNumeral 4 cancelled) (hmissed : e.HoldsNumeral 5 missed)
    (htotal : finished + cancelled < Nat.pow 2 64) :
    ∃ c, e.logStats.counts? = some c ∧ IsCountOf finished c.finished ∧
      IsCountOf cancelled c.cancelled ∧ IsCountOf missed c.missedDeadline ∧
      c.total = min maxWord (c.finished + c.cancelled) ∧
      (c = ⟨finished + cancelled, finished, cancelled, missed⟩ ↔
        IsKept finished ∧ IsKept cancelled ∧ IsKept missed) := by
  obtain ⟨f, hf, hfCount⟩ := Event.parseCount_of_holdsNumeral hfinished "finished"
  obtain ⟨k, hk, hkCount⟩ := Event.parseCount_of_holdsNumeral hcancelled "cancelled"
  obtain ⟨m, hm, hmCount⟩ := Event.parseCount_of_holdsNumeral hmissed "missed_deadline"
  refine ⟨⟨min maxWord (f + k), f, k, m⟩, ?_, hfCount, hkCount, hmCount, rfl, ?_⟩
  · show (e.parseCounts).toOption = _
    rw [Event.parseCounts_eq_ok hf hk hm]
    rfl
  · rw [← hfCount.exact_iff, ← hkCount.exact_iff, ← hmCount.exact_iff, GraphCounts.mk.injEq]
    constructor
    · rintro ⟨-, rfl, rfl, rfl⟩
      exact ⟨rfl, rfl, rfl⟩
    · rintro ⟨rfl, rfl, rfl⟩
      exact ⟨Nat.min_eq_right (le_maxWord_iff.mpr htotal), rfl, rfl, rfl⟩

/-- A row with counts of 54 and of 64 bits, and with zeros in front. -/
def largeCounts : Event :=
  ⟨1, 20, "LOG_STATS", ["0", "0", "0", "9007199254740993", "0004", "18446744073709551615", "0.5"]⟩

/-- A count that needs 54 bits changes, a small one is kept, and so is the largest of 64 bits. -/
theorem largeCounts_rounded : ∃ c, largeCounts.logStats.counts? = some c ∧
    c.finished ≠ 9007199254740993 ∧ c.cancelled = 4 ∧ c.missedDeadline = maxWord := by
  have hfinished : largeCounts.HoldsNumeral 3 9007199254740993 :=
    ⟨_, rfl, numeral?_eq_some_iff.mp (by decide +kernel), by decide⟩
  have hcancelled : largeCounts.HoldsNumeral 4 4 :=
    ⟨_, rfl, numeral?_eq_some_iff.mp (by decide +kernel), by decide⟩
  have hmissed : largeCounts.HoldsNumeral 5 maxWord :=
    ⟨_, rfl, numeral?_eq_some_iff.mp (by decide +kernel), by decide⟩
  obtain ⟨c, hc, hf, hk, hm, -⟩ :=
    counts_rounded hfinished hcancelled hmissed (by decide)
  refine ⟨c, hc, fun hexact => ?_, hk.exact_iff.mpr (.inl (isShort_of_le (by decide))),
    hm.exact_iff.mpr (.inr rfl)⟩
  rcases hf.exact_iff.mp hexact with hshort | hlast
  · rw [isShort_iff_dvd] at hshort
    exact absurd hshort (by decide)
  · exact absurd hlast (by decide)

/-- A row with the least count that no double holds. -/
def oddCount : Event :=
  ⟨1, 20, "LOG_STATS", ["0", "0", "0", "9007199254740993", "0", "0", "1"]⟩

/-- One less is counted than the row says. -/
theorem oddCount_changed : oddCount.is .logStats = true ∧
    oddCount.HoldsNumeral 3 9007199254740993 ∧ oddCount.HoldsNumeral 4 0 ∧
      oddCount.HoldsNumeral 5 0 ∧ 9007199254740993 + 0 < Nat.pow 2 64 ∧
      oddCount.logStats.counts? = some ⟨9007199254740992, 9007199254740992, 0, 0⟩ ∧
      oddCount.logStats.counts? ≠ some ⟨9007199254740993 + 0, 9007199254740993, 0, 0⟩ := by
  have hcounts : oddCount.logStats.counts? = some ⟨9007199254740992, 9007199254740992, 0, 0⟩ := by
    decide +kernel
  refine ⟨by decide, ⟨_, rfl, numeral?_eq_some_iff.mp (by decide +kernel), by decide⟩,
    ⟨_, rfl, numeral?_eq_some_iff.mp (by decide +kernel), by decide⟩,
    ⟨_, rfl, numeral?_eq_some_iff.mp (by decide +kernel), by decide⟩, by decide, hcounts, ?_⟩
  rw [hcounts]
  decide

end ClusterTrace
