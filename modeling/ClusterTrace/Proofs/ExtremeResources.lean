import ClusterTrace.Proofs.DoubleOrder
import ClusterTrace.Proofs.Keyed
import ClusterTrace.Usage.Overview

/-!
# The resources with the highest and the lowest good use

One pass over the resources keeps the best and the worst of those seen so far. Only a strictly
better one takes the place, so each of the two is the first of the resources that it is tied with.
-/

namespace ClusterTrace

/-! ## The first with the largest key -/

section Leads

variable {β : Type} {key : β → Int} {entries : List β} {e : β}

/-- No entry has a larger key, and those in front have smaller ones. -/
def Leads (key : β → Int) (entries : List β) (e : β) : Prop :=
  ∃ before after, entries = before ++ e :: after ∧ (∀ x ∈ before, key x < key e) ∧
    ∀ x ∈ after, key x ≤ key e

theorem leads_singleton (key : β → Int) (e : β) : Leads key [e] e :=
  ⟨[], [], rfl, by simp, by simp⟩

theorem Leads.mem (h : Leads key entries e) : e ∈ entries := by
  obtain ⟨before, after, rfl, -, -⟩ := h
  simp

/-- No entry has a larger key than the one that leads, whether it stands in front of it or
behind. -/
theorem Leads.le (h : Leads key entries e) : ∀ x ∈ entries, key x ≤ key e := by
  obtain ⟨before, after, rfl, hbefore, hafter⟩ := h
  intro x hx
  rcases List.mem_append.mp hx with hx | hx
  · exact (hbefore x hx).le
  · rcases List.mem_cons.mp hx with rfl | hx
    · exact le_rfl
    · exact hafter x hx

/-- An entry behind all others takes the lead only if its key is strictly larger. This is the step
of the pass over the entries. -/
theorem Leads.concat (h : Leads key entries e) (x : β) :
    Leads key (entries ++ [x]) (if key e < key x then x else e) := by
  by_cases hlt : key e < key x
  · rw [if_pos hlt]
    refine ⟨entries, [], rfl, ?_, by simp⟩
    intro y hy
    have := h.le y hy
    omega
  · rw [if_neg hlt]
    obtain ⟨before, after, rfl, hbefore, hafter⟩ := h
    refine ⟨before, after ++ [x], by simp, hbefore, ?_⟩
    intro y hy
    rcases List.mem_append.mp hy with hy | hy
    · exact hafter y hy
    · rw [List.mem_singleton.mp hy]
      omega

end Leads

/-! ## Both extremes in one pass -/

/-- The best and the worst of some ratios, of equal ones the first. -/
structure Extremes (ratios : List (String × Double))
    (extremes : (String × Double) × (String × Double)) : Prop where
  best : Leads (fun e => e.2.rank) ratios extremes.1
  worst : Leads (fun e => -e.2.rank) ratios extremes.2

/-- Numbers are compared by their ranks, in which the two zeros are equal. -/
theorem Double.less_iff {x y : Double} (hx : x.isNaN = false) (hy : y.isNaN = false) :
    x.less y = true ↔ x.rank < y.rank := by
  simp [less, hx, hy]

/-- The first entry is compared with itself, which changes nothing. -/
theorem updateExtremes_self (e : String × Double) : updateExtremes (e, e) e = (e, e) := by
  simp [updateExtremes]

section Pass

variable {ratios : List (String × Double)} {extremes : (String × Double) × (String × Double)}

/-- An entry takes the place of the best or the worst one, of both or of none, as it should. -/
theorem Extremes.update (h : Extremes ratios extremes) {x : String × Double}
    (hnumbers : ∀ e ∈ ratios, e.2.isNaN = false) (hx : x.2.isNaN = false) :
    Extremes (ratios ++ [x]) (updateExtremes extremes x) := by
  obtain ⟨best, worst⟩ := extremes
  have hbest : Scalar.less best.2 x.2 = true ↔ best.2.rank < x.2.rank :=
    Double.less_iff (hnumbers best h.best.mem) hx
  have hworst : Scalar.less x.2 worst.2 = true ↔ -worst.2.rank < -x.2.rank := by
    rw [neg_lt_neg_iff]
    exact Double.less_iff hx (hnumbers worst h.worst.mem)
  constructor
  · have hstep := h.best.concat x
    simpa only [updateExtremes, hbest] using hstep
  · have hstep := h.worst.concat x
    simpa only [updateExtremes, hworst] using hstep

/-- The pass begins with the first entry as both extremes and ends with those of all entries. -/
theorem extremes_foldl (first : String × Double) (rest : List (String × Double))
    (hnumbers : ∀ e ∈ first :: rest, e.2.isNaN = false) :
    Extremes (first :: rest) ((first :: rest).foldl updateExtremes (first, first)) := by
  rw [List.foldl_cons, updateExtremes_self]
  induction rest using List.reverseRecOn with
  | nil => exact ⟨leads_singleton _ first, leads_singleton _ first⟩
  | append_singleton rest x ih =>
    rw [List.foldl_append, ← List.cons_append]
    have hseen : ∀ e ∈ first :: rest, e.2.isNaN = false := by
      intro e he
      exact hnumbers e (by simp only [← List.cons_append, List.mem_append, he, true_or])
    exact (ih hseen).update hseen (hnumbers x (by simp))

end Pass

/-! ## The overview of an account -/

namespace ClusterUsage

/-- The good use of the resource is at least that of every resource. -/
def MostUsed (u : ClusterUsage Double) (r : ResourceUsage Double) : Prop :=
  ∀ other ∈ u.resources.values, other.effective.AtMost r.effective

/-- The good use of the resource is at most that of every resource. -/
def LeastUsed (u : ClusterUsage Double) (r : ResourceUsage Double) : Prop :=
  ∀ other ∈ u.resources.values, r.effective.AtMost other.effective

/-- The name is that of the first resource of such a kind. -/
def FirstWith (u : ClusterUsage Double) (kind : ResourceUsage Double → Prop) (name : String) :
    Prop :=
  ∃ before r after, u.resources.entries = before ++ (name, r) :: after ∧ kind r ∧
    ∀ e ∈ before, ¬ kind e.2

/-- The good use of every resource is a number. -/
def HasNumbers (u : ClusterUsage Double) : Prop :=
  ∀ r ∈ u.resources.values, r.effective.isNaN = false

/-- The names and the good use of the resources. -/
def ratios (u : ClusterUsage Double) : List (String × Double) :=
  u.resources.entries.map fun (name, r) => (name, r.effective)

variable {u : ClusterUsage Double}

theorem HasNumbers.of_mem_ratios (h : u.HasNumbers) : ∀ e ∈ u.ratios, e.2.isNaN = false := by
  intro e he
  obtain ⟨entry, hentry, rfl⟩ := List.mem_map.mp he
  exact h entry.2 (List.mem_map_of_mem hentry)

/-- A resource is used most if no ratio has a higher place in the order. -/
theorem HasNumbers.mostUsed_iff (h : u.HasNumbers) {r : ResourceUsage Double}
    (hr : r ∈ u.resources.values) :
    u.MostUsed r ↔ ∀ other ∈ u.resources.values, other.effective.rank ≤ r.effective.rank := by
  refine forall₂_congr fun other hother => ?_
  simp [Double.AtMost, h r hr, h other hother]

/-- A resource is used least if no ratio has a lower place, which is the same statement about places
with the other sign. -/
theorem HasNumbers.leastUsed_iff (h : u.HasNumbers) {r : ResourceUsage Double}
    (hr : r ∈ u.resources.values) :
    u.LeastUsed r ↔ ∀ other ∈ u.resources.values, -other.effective.rank ≤ -r.effective.rank := by
  refine forall₂_congr fun other hother => ?_
  simp [Double.AtMost, h r hr, h other hother]

/-- What leads the ratios is the first resource of its kind. The kind is given by the largest key,
so one lemma serves both extremes. -/
theorem firstWith_of_leads (key : Double → Int) {kind : ResourceUsage Double → Prop}
    (hkind : ∀ r ∈ u.resources.values,
      kind r ↔ ∀ other ∈ u.resources.values, key other.effective ≤ key r.effective)
    {e : String × Double} (h : Leads (fun e => key e.2) u.ratios e) : u.FirstWith kind e.1 := by
  have hle := h.le
  obtain ⟨front, back, hsplit, hfront, -⟩ := h
  obtain ⟨before, rest, hentries, rfl, hrest⟩ := List.map_eq_append_iff.mp hsplit
  obtain ⟨⟨name, r⟩, after, rfl, rfl, -⟩ := List.map_eq_cons_iff.mp hrest
  have hmem : ∀ x ∈ before ++ (name, r) :: after, x.2 ∈ u.resources.values := by
    intro x hx
    rw [← hentries] at hx
    exact List.mem_map_of_mem hx
  have hr : r ∈ u.resources.values := hmem (name, r) (by simp)
  refine ⟨before, r, after, hentries, (hkind r hr).mpr ?_, ?_⟩
  · intro other hother
    obtain ⟨entry, hentry, rfl⟩ := List.mem_map.mp hother
    exact hle (entry.1, entry.2.effective) (List.mem_map.mpr ⟨entry, hentry, rfl⟩)
  · intro x hx hx'
    have hlt : key x.2.effective < key r.effective :=
      hfront (x.1, x.2.effective) (List.mem_map.mpr ⟨x, hx, rfl⟩)
    have hge := (hkind x.2 (hmem x (by simp [hx]))).mp hx' r hr
    omega

/-- If all resources are of the kind then the first of them is picked. -/
theorem FirstWith.head? {kind : ResourceUsage Double → Prop} {name : String}
    (h : u.FirstWith kind name) (hall : ∀ r ∈ u.resources.values, kind r) :
    u.resources.keys.head? = some name := by
  obtain ⟨before, r, after, hentries, -, hnone⟩ := h
  cases before with
  | nil => simp [Keyed.keys, hentries]
  | cons e before =>
    have he : e.2 ∈ u.resources.values := by simp [Keyed.values, hentries]
    exact absurd (hall e.2 he) (hnone e (by simp))

/-- What is picked is one of the resources, and it is of the kind. -/
theorem FirstWith.get? {kind : ResourceUsage Double → Prop} {name : String}
    (h : u.FirstWith kind name) : ∃ r, u.resources.get? name = some r ∧ kind r := by
  obtain ⟨before, r, after, hentries, hr, -⟩ := h
  refine ⟨r, Keyed.get?_eq_some_iff.mpr ?_, hr⟩
  rw [hentries]
  simp

/-! ## Other orders of the resources -/

section Reordered

variable {u' : ClusterUsage Double} (h : u'.resources.entries.Perm u.resources.entries)
include h

theorem mem_values_of_perm (r : ResourceUsage Double) :
    r ∈ u'.resources.values ↔ r ∈ u.resources.values :=
  (h.map Prod.snd).mem_iff

theorem get?_of_perm (name : String) : u'.resources.get? name = u.resources.get? name := by
  refine Option.ext fun r => ?_
  rw [Keyed.get?_eq_some_iff, Keyed.get?_eq_some_iff, h.mem_iff]

theorem mostUsed_of_perm (r : ResourceUsage Double) : u'.MostUsed r ↔ u.MostUsed r :=
  forall_congr' fun other => by rw [mem_values_of_perm h]

theorem leastUsed_of_perm (r : ResourceUsage Double) : u'.LeastUsed r ↔ u.LeastUsed r :=
  forall_congr' fun other => by rw [mem_values_of_perm h]

end Reordered

end ClusterUsage

/-- What the overview of an account says of its resources. -/
structure UsageOverview.Picks (o : UsageOverview Double) (u : ClusterUsage Double) : Prop where
  count : o.resourceCount = u.resources.keys.length
  best : u.FirstWith u.MostUsed o.best
  worst : u.FirstWith u.LeastUsed o.worst

/-- There is no overview only where there is no resource. -/
theorem overview?_eq_none_iff {u : ClusterUsage Double} :
    u.overview? = none ↔ u.resources.keys = [] := by
  unfold ClusterUsage.overview? Keyed.keys
  cases u.resources.entries <;> simp

/-- Otherwise there is one, and it picks as it should. -/
theorem ClusterUsage.HasNumbers.exists_picks {u : ClusterUsage Double} (h : u.HasNumbers)
    (hne : u.resources.keys ≠ []) : ∃ o, u.overview? = some o ∧ o.Picks u := by
  cases hratios : u.ratios with
  | nil =>
    have hnil := List.map_eq_nil_iff.mp hratios
    exact absurd (by simp [Keyed.keys, hnil]) hne
  | cons first rest =>
    have hextremes : Extremes u.ratios ((first :: rest).foldl updateExtremes (first, first)) := by
      rw [hratios]
      exact extremes_foldl first rest (hratios ▸ h.of_mem_ratios)
    refine ⟨_, by unfold ClusterUsage.overview?; rw [← ClusterUsage.ratios, hratios], ?_, ?_, ?_⟩
    · simp [← hratios, ClusterUsage.ratios, Keyed.keys]
    · exact ClusterUsage.firstWith_of_leads Double.rank (fun r => h.mostUsed_iff) hextremes.best
    · exact ClusterUsage.firstWith_of_leads (fun x => -x.rank) (fun r => h.leastUsed_iff)
        hextremes.worst

/-- Only an account without resources has no overview. If the good use of each is a number, the
overview counts the resources and names the first of those with the highest and the first of those
with the lowest good use, which is the first resource of all where none differs. Another order of
the resources changes the names only among those that are tied. -/
theorem overview?_picks (u : ClusterUsage Double) :
    (u.overview? = none ↔ u.resources.keys = []) ∧
      (u.HasNumbers → u.resources.keys ≠ [] →
        ∃ o, u.overview? = some o ∧ o.Picks u ∧
          ((∀ r ∈ u.resources.values, ∀ other ∈ u.resources.values,
              r.effective.AtMost other.effective) →
            u.resources.keys.head? = some o.best ∧ u.resources.keys.head? = some o.worst) ∧
          ∀ u' : ClusterUsage Double, u'.resources.entries.Perm u.resources.entries →
            ∃ o', u'.overview? = some o' ∧ o'.resourceCount = o.resourceCount ∧
              (∃ r, u.resources.get? o'.best = some r ∧ u.MostUsed r) ∧
              ∃ r, u.resources.get? o'.worst = some r ∧ u.LeastUsed r) := by
  refine ⟨overview?_eq_none_iff, fun hnumbers hne => ?_⟩
  obtain ⟨o, ho, hpicks⟩ := hnumbers.exists_picks hne
  refine ⟨o, ho, hpicks, ?_, ?_⟩
  · intro hequal
    exact ⟨hpicks.best.head? fun r hr other hother => hequal other hother r hr,
      hpicks.worst.head? hequal⟩
  · intro u' hperm
    have hkeys : u'.resources.keys.Perm u.resources.keys := hperm.map Prod.fst
    have hnumbers' : u'.HasNumbers := by
      intro r hr
      exact hnumbers r ((ClusterUsage.mem_values_of_perm hperm r).mp hr)
    have hne' : u'.resources.keys ≠ [] := by
      intro hnil
      rw [hnil] at hkeys
      exact hne hkeys.symm.eq_nil
    obtain ⟨o', ho', hpicks'⟩ := hnumbers'.exists_picks hne'
    obtain ⟨r, hr, hmost⟩ := hpicks'.best.get?
    obtain ⟨r', hr', hleast⟩ := hpicks'.worst.get?
    rw [ClusterUsage.get?_of_perm hperm] at hr hr'
    refine ⟨o', ho', ?_, ⟨r, hr, ?_⟩, r', hr', ?_⟩
    · rw [hpicks'.count, hpicks.count, hkeys.length_eq]
    · exact (ClusterUsage.mostUsed_of_perm hperm r).mp hmost
    · exact (ClusterUsage.leastUsed_of_perm hperm r').mp hleast

/-- A resource of which only the good use matters. -/
def resourceOfUse (effective : Double) : ResourceUsage Double :=
  ⟨Double.ofNat 1, effective, effective, #[], none⟩

/-- Resources that are tied for either extreme: both zeros, and two infinities. -/
def tiedResources : List (String × ResourceUsage Double) :=
  [("CPU", resourceOfUse Double.zero), ("GPU", resourceOfUse (Double.infinityOf false)),
    ("RAM", resourceOfUse Double.negZero), ("TPU", resourceOfUse (Double.infinityOf false))]

def tiedUsage : ClusterUsage Double := ⟨8, tiedResources, by decide⟩

/-- The same resources the other way round. -/
def reversedUsage : ClusterUsage Double := ⟨8, tiedResources.reverse, by decide⟩

/-- Of tied resources the first one is picked, and so another one in the other order. The two zeros
are tied here, and the two infinities. -/
theorem tiedUsage_picks :
    (∃ o, tiedUsage.overview? = some o ∧ o.Picks tiedUsage ∧ o.best = "GPU" ∧ o.worst = "CPU") ∧
      ∃ o', reversedUsage.overview? = some o' ∧ o'.best = "TPU" ∧ o'.worst = "RAM" ∧
        ∃ r, tiedUsage.resources.get? "TPU" = some r ∧ tiedUsage.MostUsed r := by
  have hnumbers : tiedUsage.HasNumbers := by
    unfold ClusterUsage.HasNumbers
    decide
  obtain ⟨o, ho, hpicks, -, hother⟩ := (overview?_picks tiedUsage).2 hnumbers (by decide)
  obtain ⟨o', ho', -, hbest, -⟩ := hother reversedUsage (List.reverse_perm tiedResources)
  have hnames : tiedUsage.overview?.map (fun o => (o.best, o.worst)) = some ("GPU", "CPU") := by
    decide +kernel
  have hnames' : reversedUsage.overview?.map (fun o => (o.best, o.worst)) =
      some ("TPU", "RAM") := by
    decide +kernel
  rw [ho, Option.map_some, Option.some.injEq, Prod.mk.injEq] at hnames
  rw [ho', Option.map_some, Option.some.injEq, Prod.mk.injEq] at hnames'
  refine ⟨⟨o, ho, hpicks, hnames⟩, o', ho', hnames'.1, hnames'.2, ?_⟩
  rw [← hnames'.1]
  exact hbest

end ClusterTrace
