import ClusterTrace.Proofs.BatchOutcomes
import ClusterTrace.Proofs.SweepExpansion
import ClusterTrace.Proofs.UsageTable

/-!
# What a row of the table says about its run

A row holds the label of its run, which is the last name in the path of the run's directory. The
runs that one path stands for have different labels. Runs of different sweeps may share one, and
then their rows for the same resource cannot be told apart. No other rows agree in the label and the
resource, so rows identify their runs if the labels of the directories are distinct.
-/

namespace ClusterTrace

/-- The label and the resource of a row. -/
def UsageRow.pair (row : UsageRow) : String × String := (row.run, row.resource)

/-- The label of the directory with each resource that its run uses, if it could be analysed. -/
def JobOutcome.pairs (o : JobOutcome RunAnalysis) : List (String × String) :=
  match o.result with
  | .ok run => run.trace.usage.resources.keys.map fun resource => (runName o.dir, resource)
  | .error _ => []

/-! ## Labels -/

/-- The label of a run in a sweep is its name there. -/
theorem runName_join {path name : String} (hpath : path ≠ "") (hname : Node.IsEntryName name) :
    runName (Path.join path name) = name := by
  obtain ⟨front, -, -, hjoin⟩ := Path.exists_parts_join hpath hname
  have hlast : ((Path.parts (Path.join path name)).filter fun part => !Path.isVoid part).getLast? =
      some name := by
    rw [hjoin, List.filter_append]
    simp [hname.isVoid_eq]
  rw [runName, Path.fileName?, hlast, Option.filter_some]
  simp [hname.ne_dots]

/-- Runs that one path stands for have different labels: they are subdirectories of one directory,
or the path stands for itself alone. -/
theorem nodup_labels_expand {s : Storage} (proper : s.root.Proper) (path : String) :
    ((Sweep.expand s path).map runName).Nodup := by
  have hstands := Sweep.standsFor_expand proper path
  generalize Sweep.expand s path = runs at hstands ⊢
  cases hstands with
  | itself _ => exact List.nodup_singleton _
  | children directory _ _ mem_iff nodup _ =>
    obtain ⟨entries, hentries⟩ := directory
    have hpath := Storage.ne_empty_of_lookup hentries
    -- The runs have one parent, so they differ in their names there.
    refine nodup.map_on fun run hrun run' hrun' hlabel => ?_
    obtain ⟨name, hentry, rfl, -⟩ := (mem_iff run).mp hrun
    obtain ⟨name', hentry', rfl, -⟩ := (mem_iff run').mp hrun'
    rw [runName_join hpath (Storage.isEntryName_of_hasEntry proper hentry),
      runName_join hpath (Storage.isEntryName_of_hasEntry proper hentry')] at hlabel
    rw [hlabel]

/-! ## Values that occur twice -/

section Twice

variable {α β : Type}

/-- Each list has the value at most once, so it is as often there as there are lists with it. -/
theorem count_flatMap_of_nodup [BEq β] [LawfulBEq β] {f : α → List β}
    (hnodup : ∀ x, (f x).Nodup) (l : List α) (b : β) :
    (l.flatMap f).count b = (l.filter fun x => (f x).contains b).length := by
  induction l with
  | nil => rfl
  | cons x rest ih =>
    rw [List.flatMap_cons, List.count_append, ih, List.Nodup.count (hnodup x)]
    by_cases hb : b ∈ f x
    · simp [hb, Nat.add_comm]
    · simp [hb]

theorem two_le_length_filter_iff {l : List α} {f : α → β} (hnodup : (l.map f).Nodup)
    {test : α → Bool} : 2 ≤ (l.filter test).length ↔
      ∃ x ∈ l, ∃ y ∈ l, f x ≠ f y ∧ test x = true ∧ test y = true := by
  have hnodup' : ((l.filter test).map f).Nodup := hnodup.sublist (List.filter_sublist.map f)
  have hmem : ∀ x, x ∈ l.filter test ↔ x ∈ l ∧ test x = true := fun x => List.mem_filter
  constructor
  · intro h
    match hfilter : l.filter test with
    | [] => simp [hfilter] at h
    | [_] => simp [hfilter] at h
    | x :: y :: rest =>
      rw [hfilter] at hnodup' hmem
      have hne : f x ≠ f y := by
        intro heq
        simp [heq] at hnodup'
      obtain ⟨hx, htest⟩ := (hmem x).mp (by simp)
      obtain ⟨hy, htest'⟩ := (hmem y).mp (by simp)
      exact ⟨x, hx, y, hy, hne, htest, htest'⟩
  · rintro ⟨x, hx, y, hy, hne, htest, htest'⟩
    have hx' := (hmem x).mpr ⟨hx, htest⟩
    have hy' := (hmem y).mpr ⟨hy, htest'⟩
    match hfilter : l.filter test with
    | [] => simp [hfilter] at hx'
    | [z] =>
      rw [hfilter, List.mem_singleton] at hx' hy'
      exact absurd (congrArg f (hx'.trans hy'.symm)) hne
    | _ :: _ :: _ => simp

end Twice

/-! ## The pairs of a table -/

theorem JobOutcome.nodup_pairs (o : JobOutcome RunAnalysis) : o.pairs.Nodup := by
  unfold pairs
  cases o.result with
  | ok run => exact run.trace.usage.resources.nodup.map fun _ _ h => (Prod.mk.inj h).2
  | error _ => exact List.nodup_nil

theorem JobOutcome.fst_of_mem_pairs {o : JobOutcome RunAnalysis} {p : String × String}
    (h : p ∈ o.pairs) : p.1 = runName o.dir := by
  unfold pairs at h
  cases hresult : o.result with
  | ok run =>
    rw [hresult] at h
    obtain ⟨resource, -, rfl⟩ := List.mem_map.mp h
    rfl
  | error _ =>
    rw [hresult] at h
    cases h

theorem map_pair_runRows (run : RunAnalysis) :
    (BatchReport.runRows (.ofRun run)).map UsageRow.pair =
      run.trace.usage.resources.keys.map fun resource => (run.name, resource) := by
  rw [BatchReport.runRows, RunSummary.ofRun, Keyed.map, Keyed.keys, List.map_map, List.map_map,
    List.map_map]
  rfl

/-- Rows are labelled by the directories that their runs were loaded from. The induction is on the
outcomes; one without a run has no rows. -/
theorem map_pair_usageRows_perm {outcomes : List (JobOutcome RunAnalysis)}
    (hlabels : ∀ o ∈ outcomes, ∀ run, o.result = .ok run → run.name = runName o.dir) :
    ((BatchReport.ofOutcomes outcomes).usageRows.map UsageRow.pair).Perm
      (outcomes.flatMap JobOutcome.pairs) := by
  refine ((BatchReport.usageRows_perm _).map _).trans (.of_eq ?_)
  induction outcomes with
  | nil => rfl
  | cons o rest ih =>
    have hrest := ih fun o ho => hlabels o (List.mem_cons_of_mem _ ho)
    rw [BatchReport.ofOutcomes] at hrest ⊢
    rw [List.flatMap_cons, ← hrest, JobOutcome.pairs]
    cases hresult : o.result with
    | ok run =>
      have hname := hlabels o List.mem_cons_self run hresult
      simp only [List.filterMap_cons, hresult, List.flatMap_cons, List.map_append,
        map_pair_runRows, hname]
    | error _ => simp only [List.filterMap_cons, hresult, List.nil_append]

/-! ## The outcomes of a batch that is done -/

section Board

variable {α : Type} {runner : Runner} {dirs : List String} {behaviour : Job → Behaviour α}
  {b : Board α}

/-- Some jobs may have no outcome, but none has two. -/
theorem Board.Accounted.sublist_dirs (hb : b.Accounted runner behaviour dirs)
    (hdone : b.isDone = true) : (b.outcomes.map JobOutcome.dir).Sublist dirs := by
  have hall : (dirs.mapIdx Job.mk).map Job.dir = dirs :=
    List.ext_getElem (by simp) fun i hi hi' => by simp
  have hdirs : b.outcomes.map JobOutcome.dir =
      ((dirs.mapIdx Job.mk).filter Job.isNameable).map Job.dir := by
    rw [← hb.map_job_sorted hdone, outcomes, List.map_map, List.map_map]
    rfl
  have hsub : (((dirs.mapIdx Job.mk).filter Job.isNameable).map Job.dir).Sublist
      ((dirs.mapIdx Job.mk).map Job.dir) := List.filter_sublist.map Job.dir
  rwa [hall, ← hdirs] at hsub

end Board

/-- Two rows agree in the label and the resource if and only if two directories with this label have
runs that were analysed and use the resource. So no two rows do if the labels of the directories are
distinct, as are those of the runs that one path stands for. -/
theorem shared_pair_iff {s : Storage} (proper : s.root.Proper) {paths : List String}
    (hdirs : (Sweep.expandAll s paths).Nodup) {options : RunOptions} {runner : Runner}
    {behaviour : Job → Behaviour RunAnalysis} {moves : List Move} {b : Board RunAnalysis}
    (hload : ∀ job run, behaviour job = .ends (.returned (.ok run)) →
      RunAnalysis.load s job.dir options = .ok run)
    (hplay : (Board.initial (Sweep.expandAll s paths)).play? runner behaviour moves = some b)
    (hdone : b.isDone = true) :
    (∀ o ∈ b.outcomes, o.dir ∈ Sweep.expandAll s paths ∧
      ∀ run, o.result = .ok run → RunAnalysis.load s o.dir options = .ok run) ∧
    (∀ p, 2 ≤ ((BatchReport.ofOutcomes b.outcomes).usageRows.map UsageRow.pair).count p ↔
      ∃ o ∈ b.outcomes, ∃ o' ∈ b.outcomes, o.dir ≠ o'.dir ∧ p ∈ o.pairs ∧ p ∈ o'.pairs) ∧
    (((Sweep.expandAll s paths).map runName).Nodup →
      ((BatchReport.ofOutcomes b.outcomes).usageRows.map UsageRow.pair).Nodup) ∧
    ∀ path, ((Sweep.expand s path).map runName).Nodup := by
  have haccounted := Board.accounted_of_play? hplay
  have hsub := haccounted.sublist_dirs hdone
  have hloaded : ∀ o ∈ b.outcomes, ∀ run, o.result = .ok run →
      RunAnalysis.load s o.dir options = .ok run := by
    intro o ho run hresult
    obtain ⟨job, hdir, hreturned⟩ := haccounted.returned_ok ho hresult
    exact hdir ▸ hload job run hreturned
  have hperm := map_pair_usageRows_perm fun o ho run hresult =>
    RunAnalysis.name_of_load (hloaded o ho run hresult)
  have hmem : ∀ o ∈ b.outcomes, o.dir ∈ Sweep.expandAll s paths :=
    fun o ho => hsub.mem (List.mem_map_of_mem ho)
  -- Each outcome has a pair at most once, so a pair that is there twice is one of two outcomes.
  have hshared : ∀ p,
      2 ≤ ((BatchReport.ofOutcomes b.outcomes).usageRows.map UsageRow.pair).count p ↔
        ∃ o ∈ b.outcomes, ∃ o' ∈ b.outcomes, o.dir ≠ o'.dir ∧ p ∈ o.pairs ∧ p ∈ o'.pairs := by
    intro p
    rw [hperm.count_eq, count_flatMap_of_nodup JobOutcome.nodup_pairs,
      two_le_length_filter_iff (hsub.nodup hdirs)]
    simp only [List.contains_iff_mem]
  refine ⟨fun o ho => ⟨hmem o ho, hloaded o ho⟩, hshared, fun hlabels => ?_,
    nodup_labels_expand proper⟩
  rw [List.nodup_iff_count_le_one]
  intro p
  by_contra htwice
  -- Both outcomes have the label of the pair.
  obtain ⟨o, ho, o', ho', hne, hp, hp'⟩ := (hshared p).mp (Nat.lt_of_not_le htwice)
  have hlabel : runName o.dir = runName o'.dir :=
    (JobOutcome.fst_of_mem_pairs hp).symm.trans (JobOutcome.fst_of_mem_pairs hp')
  exact hne (List.inj_on_of_nodup_map hlabels (hmem o ho) (hmem o' ho') hlabel)

/-! ## Two sweeps with runs on GPUs -/

/-- Two sweeps of one run each, of which the second one has the given name. -/
def twoSweeps (name : String) : Storage :=
  .ofNode (.directory [("a", .directory [("edf", .directory (gpuRun "1"))]),
    ("b", .directory [(name, .directory (gpuRun "2"))])])

/-- The report on both sweeps. -/
def sweepsReport (name : String) : BatchReport :=
  .ofOutcomes (Batch.analyze (twoSweeps name) (Sweep.expandAll (twoSweeps name) ["a", "b"])
    ⟨true, .standard⟩ ⟨1, none⟩)

theorem Sweep.expand_of_list {s : Storage} {path name : String} {entries : List (String × Node)}
    (h : s.list path = .ok [(name, .directory entries)]) :
    expand s path = [Path.join path name] := by
  have hnames : directoryNames [(name, .directory entries)] = [name] := List.mergeSort_singleton _
  rw [expand, h]
  simp [isTrace, Node.isFile, hnames]

/-- The table of runs on GPUs has one row for each of them. -/
theorem pairs_gpuRuns {s : Storage} (proper : s.root.Proper) {dirs : List String}
    (hdirs : ∀ dir ∈ dirs, ∃ amount ∈ ["1", "2"], s.list dir = .ok (gpuRun amount))
    (runner : Runner) :
    ((BatchReport.ofOutcomes (Batch.analyze s dirs ⟨true, .standard⟩ runner)).usageRows.map
      UsageRow.pair).Perm (dirs.map fun dir => (runName dir, "GPU")) := by
  have hnames : ∀ dir ∈ dirs, '\x00' ∉ dir.toList := by
    intro dir hdir
    obtain ⟨amount, -, hlist⟩ := hdirs dir hdir
    obtain ⟨entries, hentries, -⟩ := Storage.list_eq_ok_iff.mp hlist
    exact Storage.nul_not_mem_of_lookup hentries
  have hload : ∀ dir ∈ dirs, ∃ run, RunAnalysis.load s dir ⟨true, .standard⟩ = .ok run ∧
      run.trace.usage.resources.keys = ["GPU"] := by
    intro dir hdir
    obtain ⟨amount, hamount, hlist⟩ := hdirs dir hdir
    exact exists_load_gpuRun proper hlist hamount
  rw [Batch.analyze_eq hnames]
  refine (map_pair_usageRows_perm fun o ho run hresult => ?_).trans (.of_eq ?_)
  · obtain ⟨dir, hdir, rfl⟩ := List.mem_map.mp ho
    obtain ⟨run', hrun', -⟩ := hload dir hdir
    rw [hrun'] at hresult
    cases hresult
    exact RunAnalysis.name_of_load hrun'
  · rw [List.flatMap_map, List.map_eq_flatMap]
    refine List.flatMap_congr fun dir hdir => ?_
    obtain ⟨run, hrun, hkeys⟩ := hload dir hdir
    simp only [JobOutcome.pairs, hrun, Except.mapError, hkeys, List.map_singleton]

section TwoSweeps

variable {name : String} (hname : name ∈ ["edf", "fifo"])

include hname

theorem isEntryName_twoSweeps : Node.IsEntryName name := by
  have hnames : ∀ name ∈ ["edf", "fifo"], Node.IsEntryName name := by decide
  exact hnames name hname

theorem proper_twoSweeps : (twoSweeps name).root.Proper := by
  have hsweeps : ∀ name ∈ ["a", "b"], Node.IsEntryName name := by decide
  have hedf : Node.IsEntryName "edf" := by decide
  refine .singleton (by decide) (.directory (by simp) ?_ ?_)
  · simpa using hsweeps
  · simp [Node.Proper.singleton, hedf, isEntryName_twoSweeps hname, proper_gpuRun]

theorem list_twoSweeps :
    (twoSweeps name).list "a" = .ok [("edf", .directory (gpuRun "1"))] ∧
      (twoSweeps name).list "b" = .ok [(name, .directory (gpuRun "2"))] ∧
      (twoSweeps name).list (Path.join "a" "edf") = .ok (gpuRun "1") ∧
      (twoSweeps name).list (Path.join "b" name) = .ok (gpuRun "2") := by
  simp only [List.mem_cons, List.not_mem_nil, or_false] at hname
  rcases hname with rfl | rfl <;> exact ⟨rfl, rfl, rfl, rfl⟩

theorem expandAll_twoSweeps :
    Sweep.expandAll (twoSweeps name) ["a", "b"] = [Path.join "a" "edf", Path.join "b" name] := by
  obtain ⟨hfirst, hsecond, -, -⟩ := list_twoSweeps hname
  rw [Sweep.expandAll, List.flatMap_cons, List.flatMap_cons, Sweep.expand_of_list hfirst,
    Sweep.expand_of_list hsecond]
  rfl

theorem labels_twoSweeps :
    (Sweep.expandAll (twoSweeps name) ["a", "b"]).map runName = ["edf", name] := by
  have hedf : runName (Path.join "a" "edf") = "edf" := runName_join (by decide) (by decide)
  have hlabel : runName (Path.join "b" name) = name :=
    runName_join (by decide) (isEntryName_twoSweeps hname)
  rw [expandAll_twoSweeps hname, List.map_cons, List.map_singleton, hedf, hlabel]

theorem pairs_twoSweeps :
    ((sweepsReport name).usageRows.map UsageRow.pair).Perm [("edf", "GPU"), (name, "GPU")] := by
  have hruns : ∀ dir ∈ Sweep.expandAll (twoSweeps name) ["a", "b"],
      ∃ amount ∈ ["1", "2"], (twoSweeps name).list dir = .ok (gpuRun amount) := by
    obtain ⟨-, -, hfirst, hsecond⟩ := list_twoSweeps hname
    rw [expandAll_twoSweeps hname]
    simp only [List.forall_mem_cons]
    exact ⟨⟨"1", by simp, hfirst⟩, ⟨"2", by simp, hsecond⟩, by simp⟩
  have hpairs : (Sweep.expandAll (twoSweeps name) ["a", "b"]).map
      (fun dir => (runName dir, "GPU")) = [("edf", "GPU"), (name, "GPU")] := by
    have hlabels := congrArg (List.map fun label => (label, "GPU")) (labels_twoSweeps hname)
    rwa [List.map_map] at hlabels
  exact hpairs ▸ pairs_gpuRuns (proper_twoSweeps hname) hruns ⟨1, none⟩

end TwoSweeps

/-- The directories differ but the labels do not, so a row of the one run looks like one of the
other. -/
theorem not_nodup_pairs_edf : (twoSweeps "edf").root.Proper ∧
    (Sweep.expandAll (twoSweeps "edf") ["a", "b"]).Nodup ∧
    ¬ ((sweepsReport "edf").usageRows.map UsageRow.pair).Nodup := by
  refine ⟨proper_twoSweeps (by decide), ?_, ?_⟩
  · rw [expandAll_twoSweeps (by decide)]
    decide
  · rw [(pairs_twoSweeps (by decide)).nodup_iff]
    decide

theorem nodup_pairs_fifo :
    ((sweepsReport "fifo").usageRows.map UsageRow.pair).Perm [("edf", "GPU"), ("fifo", "GPU")] ∧
    ((sweepsReport "fifo").usageRows.map UsageRow.pair).Nodup := by
  have hlabels : ((Sweep.expandAll (twoSweeps "fifo") ["a", "b"]).map runName).Nodup := by
    rw [labels_twoSweeps (by decide)]
    decide
  obtain ⟨moves, b, hplay, hdone, hanalyze⟩ := Batch.exists_play?_analyze (twoSweeps "fifo")
    (Sweep.expandAll (twoSweeps "fifo") ["a", "b"]) ⟨true, .standard⟩ ⟨1, none⟩
  obtain ⟨-, -, hnodup, -⟩ := shared_pair_iff (proper_twoSweeps (by decide)) hlabels.of_map
    (fun job run hrun => ThreadEnd.returned.inj (Behaviour.ends.inj hrun)) hplay hdone
  refine ⟨pairs_twoSweeps (by decide), ?_⟩
  rw [sweepsReport, hanalyze]
  exact hnodup hlabels

end ClusterTrace
