import ClusterTrace.Number.Exact
import ClusterTrace.Statistics.Sample

/-!
# Sorted values

The order by which values are sorted is total and tells any two of them apart, also zeros and NaNs
(`Scalar.TotalOrder`). So values have one arrangement in this order, however they arrive; its ends
are the least and the greatest value, and the quantiles of a sample depend on nothing else. A
summary of values says of each what the sample of the values says (`Summary.Describes`).
-/

namespace ClusterTrace

/-- The order that sorts values is a total order. -/
class Scalar.TotalOrder (α : Type) [Scalar α] : Prop where
  total : ∀ x y : α, (totalLe x y || totalLe y x) = true
  trans : ∀ x y z : α, totalLe x y = true → totalLe y z = true → totalLe x z = true
  antisymm : ∀ x y : α, totalLe x y = true → totalLe y x = true → x = y

/-- The place in the total order is one's own: the negative numbers lie below all others. -/
theorem Double.eq_of_totalRank_eq {x y : Double} (h : x.totalRank = y.totalRank) : x = y := by
  obtain ⟨negative, code, _⟩ := x
  obtain ⟨negative', code', _⟩ := y
  cases negative <;> cases negative' <;> simp [totalRank] at h ⊢ <;> omega

instance : Scalar.TotalOrder Double where
  total x y := by
    rw [Bool.or_eq_true]
    exact (Int.le_total x.totalRank y.totalRank).imp decide_eq_true decide_eq_true
  trans x y z h h' := decide_eq_true (Int.le_trans (of_decide_eq_true h) (of_decide_eq_true h'))
  antisymm x y h h' :=
    Double.eq_of_totalRank_eq (Int.le_antisymm (of_decide_eq_true h) (of_decide_eq_true h'))

instance : Scalar.TotalOrder ℚ where
  total x y := by
    rw [Bool.or_eq_true]
    exact (le_total x y).imp decide_eq_true decide_eq_true
  trans x y z h h' := decide_eq_true (le_trans (of_decide_eq_true h) (of_decide_eq_true h'))
  antisymm x y h h' := le_antisymm (of_decide_eq_true h) (of_decide_eq_true h')

variable {α : Type} [Scalar α]

/-- One of the values is at most each of them. -/
def IsLowest (values : List α) (x : α) : Prop :=
  x ∈ values ∧ ∀ y ∈ values, Scalar.totalLe x y = true

/-- One of the values is at least each of them. -/
def IsHighest (values : List α) (x : α) : Prop :=
  x ∈ values ∧ ∀ y ∈ values, Scalar.totalLe y x = true

/-- A summary says of values what the sample of them says. -/
structure Summary.Describes (m : Summary α) (s : Sample α) : Prop where
  count : m.count = s.size
  mean : m.mean = Scalar.sum s.values / Scalar.ofNat s.size
  min : s.min? = some m.min
  p25 : s.quantile? (Scalar.ofRatio 1 4) = some m.p25
  median : s.quantile? (Scalar.ofRatio 1 2) = some m.median
  p75 : s.quantile? (Scalar.ofRatio 3 4) = some m.p75
  p95 : s.quantile? (Scalar.ofRatio 95 100) = some m.p95
  max : s.max? = some m.max

/-- The two ranks between which a quantile of so many values lies are ranks of values. -/
def RanksWithin (count : Nat) (q : α) : Prop :=
  Scalar.floor (quantilePosition count q) < count ∧ Scalar.ceil (quantilePosition count q) < count

theorem sorted_perm (values : List α) : (sorted values).Perm values := List.mergeSort_perm _ _

theorem length_sorted (values : List α) : (sorted values).length = values.length :=
  (sorted_perm values).length_eq

theorem sorted_ne_nil {values : List α} (h : values ≠ []) : sorted values ≠ [] := by
  rw [ne_eq, ← List.length_eq_zero_iff, length_sorted, List.length_eq_zero_iff]
  exact h

omit [Scalar α] in
theorem size_ne_zero {s : Sample α} (hs : s.values ≠ []) : s.size ≠ 0 :=
  mt List.length_eq_zero_iff.mp hs

theorem exists_min? {s : Sample α} (hs : s.values ≠ []) : ∃ x, s.min? = some x := by
  obtain ⟨x, rest, hv⟩ := List.exists_cons_of_ne_nil hs
  exact ⟨_, by rw [Sample.min?, hv]⟩

theorem exists_max? {s : Sample α} (hs : s.values ≠ []) : ∃ x, s.max? = some x := by
  obtain ⟨x, rest, hv⟩ := List.exists_cons_of_ne_nil hs
  exact ⟨_, by rw [Sample.max?, hv]⟩

/-- Both neighbours of the position are there, so there is a value between them. -/
theorem quantileOfSorted?_eq_some {ordered : List α} {q : α}
    (h : RanksWithin ordered.length q) : ∃ x, quantileOfSorted? ordered q = some x := by
  obtain ⟨hlow, hhigh⟩ := h
  simp only [quantileOfSorted?, List.getElem?_eq_getElem hlow, List.getElem?_eq_getElem hhigh]
  exact ⟨_, rfl⟩

theorem exists_quantile {s : Sample α} {q : α} (h : RanksWithin s.size q) :
    ∃ x, s.quantile? q = some x := by
  refine quantileOfSorted?_eq_some ?_
  rw [length_sorted]
  exact h

omit [Scalar α] in
/-- A value that is picked again and again from two is one of all values, and stands to each of them
as to the two it is picked from. -/
theorem foldl_pick {pick : α → α → α} {R : α → α → Prop}
    (htrans : ∀ {x y z}, R x y → R y z → R x z) (hrefl : ∀ x, R x x)
    (hpick : ∀ x y, (pick x y = x ∨ pick x y = y) ∧ R (pick x y) x ∧ R (pick x y) y)
    (x : α) (rest : List α) :
    rest.foldl pick x ∈ x :: rest ∧ ∀ y ∈ x :: rest, R (rest.foldl pick x) y := by
  induction rest generalizing x with
  | nil =>
    refine ⟨List.mem_singleton_self x, fun y hy => ?_⟩
    rw [List.mem_singleton.mp hy]
    exact hrefl x
  | cons z rest ih =>
    obtain ⟨hmem, hall⟩ := ih (pick x z)
    obtain ⟨hchoice, hx, hz⟩ := hpick x z
    have hpicked := hall _ List.mem_cons_self
    constructor
    · rcases List.mem_cons.mp hmem with heq | hrest
      · rw [List.foldl_cons, heq]
        rcases hchoice with hfirst | hsecond
        · rw [hfirst]
          exact List.mem_cons_self
        · rw [hsecond]
          exact List.mem_cons_of_mem _ List.mem_cons_self
      · exact List.mem_cons_of_mem _ (List.mem_cons_of_mem _ hrest)
    · intro y hy
      rcases List.mem_cons.mp hy with rfl | hy
      · exact htrans hpicked hx
      · rcases List.mem_cons.mp hy with rfl | hy
        · exact htrans hpicked hz
        · exact hall y (List.mem_cons_of_mem _ hy)

section Ordered

variable [Scalar.TotalOrder α]

theorem totalLe_refl (x : α) : Scalar.totalLe x x = true := by
  have := Scalar.TotalOrder.total x x
  rwa [Bool.or_self] at this

theorem totalLe_of_not {x y : α} (h : ¬ Scalar.totalLe x y = true) : Scalar.totalLe y x = true := by
  have := Scalar.TotalOrder.total x y
  rwa [Bool.eq_false_iff.mpr h, Bool.false_or] at this

/-- The order is total, so sorting by it leaves no two values in the wrong order. -/
theorem pairwise_sorted (values : List α) :
    (sorted values).Pairwise fun x y => Scalar.totalLe x y = true :=
  List.pairwise_mergeSort Scalar.TotalOrder.trans Scalar.TotalOrder.total values

/-- The sorted arrangement is the only one. -/
theorem eq_sorted {values ordered : List α} (hperm : ordered.Perm values)
    (hordered : ordered.Pairwise fun x y => Scalar.totalLe x y = true) :
    ordered = sorted values :=
  List.Perm.eq_of_pairwise (fun x y _ _ => Scalar.TotalOrder.antisymm x y) hordered
    (pairwise_sorted values) (hperm.trans (sorted_perm values).symm)

/-- Values that are not told apart by the order are the same, so the order in which they come does
not matter. -/
theorem sorted_eq_of_perm {values values' : List α} (h : values.Perm values') :
    sorted values = sorted values' :=
  eq_sorted ((sorted_perm values).trans h) (pairwise_sorted values)

/-! ## The ends -/

theorem IsLowest.unique {values : List α} {x y : α} (hx : IsLowest values x)
    (hy : IsLowest values y) : x = y :=
  Scalar.TotalOrder.antisymm x y (hx.2 y hy.1) (hy.2 x hx.1)

theorem IsHighest.unique {values : List α} {x y : α} (hx : IsHighest values x)
    (hy : IsHighest values y) : x = y :=
  Scalar.TotalOrder.antisymm x y (hy.2 x hx.1) (hx.2 y hy.1)

/-- The minimum is picked pair by pair, from the first value on. -/
theorem isLowest_of_min? {s : Sample α} {x : α} (h : s.min? = some x) : IsLowest s.values x := by
  unfold Sample.min? at h
  cases hv : s.values with
  | nil =>
    rw [hv] at h
    cases h
  | cons y rest =>
    rw [hv] at h
    obtain rfl := Option.some.inj h
    refine foldl_pick (R := fun x y => Scalar.totalLe x y = true)
      (Scalar.TotalOrder.trans _ _ _) totalLe_refl (fun x y => ?_) y rest
    unfold lower
    split
    · rename_i hle
      exact ⟨.inl rfl, totalLe_refl x, hle⟩
    · rename_i hle
      exact ⟨.inr rfl, totalLe_of_not hle, totalLe_refl y⟩

theorem isHighest_of_max? {s : Sample α} {x : α} (h : s.max? = some x) :
    IsHighest s.values x := by
  unfold Sample.max? at h
  cases hv : s.values with
  | nil =>
    rw [hv] at h
    cases h
  | cons y rest =>
    rw [hv] at h
    obtain rfl := Option.some.inj h
    refine foldl_pick (R := fun x y => Scalar.totalLe y x = true)
      (fun h h' => Scalar.TotalOrder.trans _ _ _ h' h) totalLe_refl (fun x y => ?_) y rest
    unfold upper
    split
    · rename_i hle
      exact ⟨.inr rfl, hle, totalLe_refl y⟩
    · rename_i hle
      exact ⟨.inl rfl, totalLe_refl x, totalLe_of_not hle⟩

/-- The first of the sorted values is at most each other one. -/
theorem isLowest_of_head? {values : List α} {x : α} (h : (sorted values).head? = some x) :
    IsLowest values x := by
  have hordered := pairwise_sorted values
  have hperm := sorted_perm values
  obtain ⟨tail, htail⟩ := List.head?_eq_some_iff.mp h
  rw [htail] at hordered hperm
  refine ⟨hperm.subset List.mem_cons_self, fun y hy => ?_⟩
  rcases List.mem_cons.mp (hperm.symm.subset hy) with rfl | hy
  · exact totalLe_refl y
  · exact List.rel_of_pairwise_cons hordered hy

/-- The last of the sorted values is at least each other one. -/
theorem isHighest_of_getLast? {values : List α} {x : α}
    (h : (sorted values).getLast? = some x) : IsHighest values x := by
  have hordered := pairwise_sorted values
  have hperm := sorted_perm values
  obtain ⟨front, hfront⟩ := List.getLast?_eq_some_iff.mp h
  rw [hfront] at hordered hperm
  refine ⟨hperm.subset (List.mem_append_right _ (List.mem_singleton_self x)), fun y hy => ?_⟩
  rcases List.mem_append.mp (hperm.symm.subset hy) with hy | hy
  · exact (List.pairwise_append.mp hordered).2.2 y hy x (List.mem_singleton_self x)
  · rw [List.mem_singleton.mp hy]
    exact totalLe_refl x

theorem head?_sorted {s : Sample α} (hs : s.values ≠ []) : (sorted s.values).head? = s.min? := by
  obtain ⟨x, hx⟩ := exists_min? hs
  have hhead := List.head?_eq_some_head (sorted_ne_nil hs)
  rw [hhead, hx, (isLowest_of_head? hhead).unique (isLowest_of_min? hx)]

theorem getLast?_sorted {s : Sample α} (hs : s.values ≠ []) :
    (sorted s.values).getLast? = s.max? := by
  obtain ⟨x, hx⟩ := exists_max? hs
  have hlast := List.getLast?_eq_some_getLast (sorted_ne_nil hs)
  rw [hlast, hx, (isHighest_of_getLast? hlast).unique (isHighest_of_max? hx)]

/-! ## Summaries -/

/-- Values whose quantiles lie between ranks of values have a summary, and it describes them. -/
theorem exists_summary {s : Sample α} (hs : s.values ≠ [])
    (hranks : ∀ q ∈ [Scalar.ofRatio 1 4, Scalar.ofRatio 1 2, Scalar.ofRatio 3 4,
      (Scalar.ofRatio 95 100 : α)], RanksWithin s.size q) :
    ∃ m, Summary.of? s.values = some m ∧ m.Describes s := by
  simp only [List.mem_cons, List.not_mem_nil, or_false, forall_eq_or_imp, forall_eq] at hranks
  obtain ⟨h25, h50, h75, h95⟩ := hranks
  obtain ⟨p25, h25⟩ := exists_quantile h25
  obtain ⟨median, h50⟩ := exists_quantile h50
  obtain ⟨p75, h75⟩ := exists_quantile h75
  obtain ⟨p95, h95⟩ := exists_quantile h95
  obtain ⟨min, hmin⟩ := exists_min? hs
  obtain ⟨max, hmax⟩ := exists_max? hs
  refine ⟨⟨s.size, Scalar.sum s.values / Scalar.ofNat s.size, min, p25, median, p75, p95, max⟩, ?_,
    rfl, rfl, hmin, h25, h50, h75, h95, hmax⟩
  rw [Sample.quantile?] at h25 h50 h75 h95
  simp only [Summary.of?, head?_sorted hs, getLast?_sorted hs, hmin, hmax, h25, h50, h75, h95]
  rfl

/-- The order in which the values arrive does not matter. -/
theorem quantile?_eq_of_perm {s t : Sample α} (h : s.values.Perm t.values) (q : α) :
    t.quantile? q = s.quantile? q := by
  rw [Sample.quantile?, sorted_eq_of_perm h.symm, Sample.quantile?]

theorem min?_eq_of_perm {s t : Sample α} (hs : s.values ≠ []) (h : s.values.Perm t.values) :
    t.min? = s.min? := by
  have ht : t.values ≠ [] := fun hnil => hs (List.perm_nil.mp (hnil ▸ h))
  rw [← head?_sorted hs, ← head?_sorted ht, sorted_eq_of_perm h]

theorem max?_eq_of_perm {s t : Sample α} (hs : s.values ≠ []) (h : s.values.Perm t.values) :
    t.max? = s.max? := by
  have ht : t.values ≠ [] := fun hnil => hs (List.perm_nil.mp (hnil ▸ h))
  rw [← getLast?_sorted hs, ← getLast?_sorted ht, sorted_eq_of_perm h]

/-- In another order the values have the same summary, but for the mean. -/
theorem Summary.Describes.eq_of_perm {s t : Sample α} {m m' : Summary α} (h : m.Describes s)
    (hs : s.values ≠ []) (hperm : s.values.Perm t.values) (h' : m'.Describes t) :
    m' = { m with mean := m'.mean } := by
  have hquantile : ∀ q, t.quantile? q = s.quantile? q := quantile?_eq_of_perm hperm
  have hcount : m'.count = m.count := by
    rw [h'.count, h.count]
    exact hperm.symm.length_eq
  have hmin := h'.min.symm.trans ((min?_eq_of_perm hs hperm).trans h.min)
  have hmax := h'.max.symm.trans ((max?_eq_of_perm hs hperm).trans h.max)
  have h25 := h'.p25.symm.trans ((hquantile _).trans h.p25)
  have h50 := h'.median.symm.trans ((hquantile _).trans h.median)
  have h75 := h'.p75.symm.trans ((hquantile _).trans h.p75)
  have h95 := h'.p95.symm.trans ((hquantile _).trans h.p95)
  rw [← hcount, ← Option.some.inj hmin, ← Option.some.inj h25, ← Option.some.inj h50,
    ← Option.some.inj h75, ← Option.some.inj h95, ← Option.some.inj hmax]

end Ordered

end ClusterTrace
