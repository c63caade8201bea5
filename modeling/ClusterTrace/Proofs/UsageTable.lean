import ClusterTrace.Proofs.ByteOrder
import ClusterTrace.Proofs.Keyed
import ClusterTrace.Report.BatchReport

/-!
# The table of resources

The table has one row for each resource of each run, with the values of that run. The rows come in
the order of the runs' labels and the names of the resources; rows that agree in both keep the order
of the runs. If no two runs have the same label, the table does not depend on the order in which the
runs stand in the report or the resources in a run.
-/

namespace ClusterTrace

/-- The order of rows, in which runs and then resources are compared byte by byte. -/
def UsageRow.AtMost (x y : UsageRow) : Prop :=
  Utf8.encode x.run < Utf8.encode y.run ∨
    x.run = y.run ∧ Utf8.encode x.resource ≤ Utf8.encode y.resource

namespace RunSummary

/-- The row of a resource of a run. -/
def row? (s : RunSummary) (resource : String) : Option UsageRow :=
  (s.usage.get? resource).map fun r => ⟨s.name, resource, r.effective, r.total⟩

/-- The two have the same label and the same resources with the same values, in any order. -/
def SameUsage (s s' : RunSummary) : Prop :=
  s.name = s'.name ∧ s.usage.entries.Perm s'.usage.entries

end RunSummary

/-- The second report has the runs of the first one in any order, and their resources as well. -/
def BatchReport.Reordered (r r' : BatchReport) : Prop :=
  ∃ runs, r.runs.Perm runs ∧ List.Forall₂ RunSummary.SameUsage runs r'.runs

/-! ## Sorting keeps the order of ties -/

/-- Sorting keeps the order of those that the test accepts, if they all tie. -/
theorem filter_mergeSort {α : Type} {le : α → α → Bool}
    (trans : ∀ a b c, le a b = true → le b c = true → le a c = true)
    (total : ∀ a b, (le a b || le b a) = true) {test : α → Bool}
    (ties : ∀ a b, test a = true → test b = true → le a b = true) (l : List α) :
    (l.mergeSort le).filter test = l.filter test := by
  -- What passes the test is in order as it stands, so sorting keeps it, and nothing is added.
  have hties : (l.filter test).Pairwise fun a b => le a b = true := by
    refine List.pairwise_of_forall_mem_list fun a ha b hb => ties a b ?_ ?_
    · exact (List.mem_filter.mp ha).2
    · exact (List.mem_filter.mp hb).2
  have hsub : (l.filter test).Sublist (l.mergeSort le) :=
    List.sublist_mergeSort trans total hties List.filter_sublist
  have hsub' : (l.filter test).Sublist ((l.mergeSort le).filter test) := by
    have := hsub.filter test
    rwa [List.filter_filter, show (fun a => test a && test a) = test from by simp] at this
  exact (hsub'.eq_of_length ((List.mergeSort_perm l le).filter test).length_eq.symm).symm

namespace BatchReport

variable {r r' : BatchReport} {x y : UsageRow}

/-! ## The order of the rows -/

theorem rowLe_iff : rowLe x y = true ↔ x.run < y.run ∨ x.run = y.run ∧ x.resource ≤ y.resource := by
  simp [rowLe]

theorem rowLe_trans (x y z : UsageRow) (hxy : rowLe x y = true) (hyz : rowLe y z = true) :
    rowLe x z = true := by
  rw [rowLe_iff] at *
  rcases hxy with hxy | ⟨hxy, hxy'⟩
  · rcases hyz with hyz | ⟨hyz, -⟩
    · exact Or.inl (hxy.trans hyz)
    · exact Or.inl (hyz ▸ hxy)
  · rcases hyz with hyz | ⟨hyz, hyz'⟩
    · exact Or.inl (hxy ▸ hyz)
    · exact Or.inr ⟨hxy.trans hyz, hxy'.trans hyz'⟩

theorem rowLe_total (x y : UsageRow) : (rowLe x y || rowLe y x) = true := by
  rw [Bool.or_eq_true, rowLe_iff, rowLe_iff]
  rcases lt_trichotomy x.run y.run with hlt | heq | hgt
  · exact Or.inl (Or.inl hlt)
  · rcases le_total x.resource y.resource with hle | hge
    · exact Or.inl (Or.inr ⟨heq, hle⟩)
    · exact Or.inr (Or.inr ⟨heq.symm, hge⟩)
  · exact Or.inr (Or.inl hgt)

theorem atMost_of_rowLe (h : rowLe x y = true) : x.AtMost y := by
  rcases rowLe_iff.mp h with hlt | ⟨heq, hle⟩
  · exact Or.inl (Utf8.encode_lt_iff.mpr hlt)
  · exact Or.inr ⟨heq, Utf8.encode_le_iff.mpr hle⟩

/-- Rows that are at most each other are of the same run and the same resource. -/
theorem eq_of_rowLe (hxy : rowLe x y = true) (hyx : rowLe y x = true) :
    x.run = y.run ∧ x.resource = y.resource := by
  rcases rowLe_iff.mp hxy with hlt | ⟨heq, hle⟩
  · rcases rowLe_iff.mp hyx with hgt | ⟨heq, -⟩
    · exact absurd hlt hgt.asymm
    · exact absurd hlt (heq ▸ lt_irrefl _)
  · rcases rowLe_iff.mp hyx with hgt | ⟨-, hge⟩
    · exact absurd hgt (heq ▸ lt_irrefl _)
    · exact ⟨heq, le_antisymm hle hge⟩

theorem pairwise_usageRows (r : BatchReport) :
    r.usageRows.Pairwise fun x y => rowLe x y = true :=
  List.pairwise_mergeSort rowLe_trans rowLe_total _

theorem usageRows_perm (r : BatchReport) : r.usageRows.Perm (r.runs.flatMap runRows) :=
  List.mergeSort_perm _ _

/-! ## The rows of one resource under one label -/

/-- A run of the name has the row of the resource if it uses it. A run of another name has no such
row. -/
theorem filter_runRows (s : RunSummary) (name resource : String) :
    (runRows s).filter (fun row => row.run = name ∧ row.resource = resource) =
      if s.name = name then (s.row? resource).toList else [] := by
  have hrows : runRows s =
      s.usage.entries.map fun e => ⟨s.name, e.1, e.2.effective, e.2.total⟩ := rfl
  rw [hrows, List.filter_map]
  by_cases hname : s.name = name
  · have hentries : s.usage.entries.filter ((fun row : UsageRow =>
        decide (row.run = name ∧ row.resource = resource)) ∘
          fun e => ⟨s.name, e.1, e.2.effective, e.2.total⟩) =
        ((s.usage.get? resource).map fun r => (resource, r)).toList := by
      rw [← Keyed.filter_entries]
      exact List.filter_congr fun e _ => by simp [hname]
    rw [if_pos hname, hentries, RunSummary.row?]
    cases s.usage.get? resource <;> rfl
  · simp [hname]

/-- These rows are those of the runs with the label that use the resource, in the order of the
runs. -/
theorem filter_usageRows (r : BatchReport) (name resource : String) :
    r.usageRows.filter (fun row => row.run = name ∧ row.resource = resource) =
      (r.runs.filter fun s => s.name = name).filterMap fun s => s.row? resource := by
  have hties : ∀ x y : UsageRow, decide (x.run = name ∧ x.resource = resource) = true →
      decide (y.run = name ∧ y.resource = resource) = true → rowLe x y = true := by
    intro x y hx hy
    obtain ⟨hxrun, hxresource⟩ := of_decide_eq_true hx
    obtain ⟨hyrun, hyresource⟩ := of_decide_eq_true hy
    exact rowLe_iff.mpr (Or.inr ⟨hxrun.trans hyrun.symm, (hxresource.trans hyresource.symm).le⟩)
  rw [usageRows, filter_mergeSort rowLe_trans rowLe_total hties, List.filter_flatMap]
  rw [List.filterMap_filter, List.filterMap_eq_flatMap_toList]
  refine List.flatMap_congr fun s _ => ?_
  rw [filter_runRows]
  by_cases hname : s.name = name <;> simp [hname]

/-- A row is in the table if a run of its name has it, and only then. -/
theorem mem_usageRows_iff : x ∈ r.usageRows ↔
    ∃ s ∈ r.runs, s.name = x.run ∧ s.row? x.resource = some x := by
  have hfilter : x ∈ r.usageRows ↔
      x ∈ r.usageRows.filter (fun row => row.run = x.run ∧ row.resource = x.resource) := by
    simp
  rw [hfilter, filter_usageRows]
  simp [and_assoc]

/-! ## Labels that are distinct -/

/-- With names that differ a run and a resource have one row at most. -/
theorem eq_of_mem_usageRows (hnames : (r.runs.map RunSummary.name).Nodup) (hx : x ∈ r.usageRows)
    (hy : y ∈ r.usageRows) (hrun : x.run = y.run) (hresource : x.resource = y.resource) :
    x = y := by
  obtain ⟨s, hs, hname, hrow⟩ := mem_usageRows_iff.mp hx
  obtain ⟨s', hs', hname', hrow'⟩ := mem_usageRows_iff.mp hy
  obtain rfl : s = s' :=
    List.inj_on_of_nodup_map hnames hs hs' (hname.trans (hrun.trans hname'.symm))
  rw [← hresource, hrow] at hrow'
  exact Option.some.inj hrow'

/-- Runs that use the same in another order have the same rows in another order. -/
theorem flatMap_runRows_perm {runs runs' : List RunSummary}
    (h : List.Forall₂ RunSummary.SameUsage runs runs') :
    (runs.flatMap runRows).Perm (runs'.flatMap runRows) := by
  induction h with
  | nil => exact .refl _
  | @cons s s' runs runs' hs _ ih =>
    have hrows : (runRows s).Perm (runRows s') := by
      rw [runRows, runRows, hs.1]
      exact hs.2.map _
    rw [List.flatMap_cons, List.flatMap_cons]
    exact hrows.append ih

theorem Reordered.usageRows_perm (h : r.Reordered r') : r'.usageRows.Perm r.usageRows := by
  obtain ⟨runs, hperm, hsame⟩ := h
  have hrows : (r.runs.flatMap runRows).Perm (r'.runs.flatMap runRows) :=
    (hperm.flatMap_right _).trans (flatMap_runRows_perm hsame)
  exact (r'.usageRows_perm.trans hrows.symm).trans r.usageRows_perm.symm

/-- Tables with the same rows, each one the only one of its run and resource, are sorted in the same
way. -/
theorem Reordered.usageRows_eq (h : r.Reordered r')
    (hnames : (r.runs.map RunSummary.name).Nodup) : r'.usageRows = r.usageRows := by
  -- Both tables are sorted, and rows that agree in the label and the resource are one row.
  refine h.usageRows_perm.eq_of_pairwise (fun x y hx hy hxy hyx => ?_) r'.pairwise_usageRows
    r.pairwise_usageRows
  obtain ⟨hrun, hresource⟩ := eq_of_rowLe hxy hyx
  exact eq_of_mem_usageRows hnames (h.usageRows_perm.mem_iff.mp hx) hy hrun hresource

/-- The table holds one row for each resource of each run and no other one, in the order of bytes of
labels and resources; rows that agree in both stand in the order of the runs. If the labels are
distinct, neither the order of the runs nor that of their resources has any influence. -/
theorem usageRows_faithful (r : BatchReport) :
    r.usageRows.Perm (r.runs.flatMap fun s =>
      s.usage.entries.map fun e => ⟨s.name, e.1, e.2.effective, e.2.total⟩) ∧
    r.usageRows.Pairwise UsageRow.AtMost ∧
    (∀ name resource, r.usageRows.filter (fun row => row.run = name ∧ row.resource = resource) =
      (r.runs.filter fun s => s.name = name).filterMap fun s => s.row? resource) ∧
    ∀ r', r.Reordered r' → (r.runs.map RunSummary.name).Nodup →
      r'.usageRows = r.usageRows ∧ r'.tableText = r.tableText := by
  refine ⟨r.usageRows_perm, r.pairwise_usageRows.imp atMost_of_rowLe, r.filter_usageRows, ?_⟩
  intro r' h hnames
  have hrows := h.usageRows_eq hnames
  exact ⟨hrows, by rw [tableText, tableText, hrows]⟩

/-- A summary with a label and the effective and the total use of some resources. -/
def usedBy (name : String) (uses : List (String × Nat × Nat)) : RunSummary where
  name := name
  dir := name
  scheduler := none
  arrivalRates := .ofList []
  invocations := none
  complete := true
  slo := none
  graphs := none
  endTick := 1
  usage := .ofList (uses.map fun (resource, effective, total) =>
    (resource, ⟨.ofNat 8, .ofNat effective, .ofNat total, none⟩))
  cluster := none
  schedulerRuntime := none
  slack := none
  solver := ⟨0, none, none, none, none⟩

/-- Two runs, neither of them nor their resources in the order of the table. -/
def unorderedReport : BatchReport where
  runs := [usedBy "tetrisched" [("GPU", 1, 2), ("CPU", 3, 4)], usedBy "edf" [("CPU", 5, 6)]]
  failures := []

/-- Runs and resources that come out of order are put in order. -/
theorem unorderedReport_rows : (unorderedReport.runs.map RunSummary.name).Nodup ∧
    unorderedReport.usageRows = [⟨"edf", "CPU", .ofNat 5, .ofNat 6⟩,
      ⟨"tetrisched", "CPU", .ofNat 3, .ofNat 4⟩, ⟨"tetrisched", "GPU", .ofNat 1, .ofNat 2⟩] := by
  have hnames : (unorderedReport.runs.map RunSummary.name).Nodup := by decide
  have hreordered : unorderedReport.Reordered
      ⟨[usedBy "edf" [("CPU", 5, 6)], usedBy "tetrisched" [("CPU", 3, 4), ("GPU", 1, 2)]], []⟩ := by
    refine ⟨_, .swap _ _ _, .cons ⟨rfl, .refl _⟩ (.cons ⟨rfl, ?_⟩ .nil)⟩
    exact .swap _ _ _
  refine ⟨hnames, ?_⟩
  rw [← ((usageRows_faithful unorderedReport).2.2.2 _ hreordered hnames).1]
  exact List.mergeSort_of_pairwise (by decide)

end BatchReport

end ClusterTrace
