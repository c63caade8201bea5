import ClusterTrace.Experiment.Sweep
import ClusterTrace.Proofs.TextCuts
import Mathlib.Data.String.Basic

/-!
# What is taken for the directory of a run

A sweep takes a directory for a run by the extension of a file in it; a run finds its trace by the
end of a name and passes over the tables of the solver library. The two tests differ on two kinds of
names: on the tables of the solver library, and on the name that is nothing but the ending. So a
directory may be taken for a run in which no trace is found, and its subdirectories are never looked
at; and a directory with a trace may be taken for a sweep.
-/

namespace ClusterTrace

/-! ## The ends of a name -/

theorem Path.endsWith_iff {name ending : String} :
    Path.endsWith name ending = true ↔ ∃ stem, name = stem ++ ending := by
  rw [Path.endsWith, List.isSuffixOf_iff_suffix]
  constructor
  · rintro ⟨stem, hstem⟩
    refine ⟨String.ofList stem, ?_⟩
    rw [← String.toList_inj, String.toList_append, String.toList_ofList, hstem]
  · rintro ⟨stem, rfl⟩
    exact ⟨stem.toList, String.toList_append.symm⟩

theorem Path.startsWith_iff {name start : String} :
    Path.startsWith name start = true ↔ ∃ rest, name = start ++ rest := by
  rw [Path.startsWith, List.isPrefixOf_iff_prefix]
  constructor
  · rintro ⟨rest, hrest⟩
    refine ⟨String.ofList rest, ?_⟩
    rw [← String.toList_inj, String.toList_append, String.toList_ofList, hrest]
  · rintro ⟨rest, rfl⟩
    exact ⟨rest.toList, String.toList_append.symm⟩

/-- A name has an extension if it ends in a dot and the extension and there is more to it. A name
that is nothing but the dot and the extension has none. -/
theorem extension?_eq_some_iff {name extension : String} (hdot : '.' ∉ extension.toList) :
    Path.extension? name = some extension ↔
      Path.endsWith name ("." ++ extension) = true ∧ name ≠ "." ++ extension := by
  have hends : Path.endsWith name ("." ++ extension) = true ↔
      ∃ before, before ++ '.' :: extension.toList = name.toList := by
    rw [Path.endsWith, List.isSuffixOf_iff_suffix, String.toList_append]
    rfl
  have heq : name = "." ++ extension ↔ '.' :: extension.toList = name.toList := by
    rw [← String.toList_inj, String.toList_append, eq_comm]
    rfl
  rw [hends, ne_eq, heq]
  constructor
  · intro h
    unfold Path.extension? at h
    cases hsplit : Text.splitFirst? '.' name.toList.reverse with
    | none => simp [hsplit] at h
    | some parts =>
      obtain ⟨reversed, before⟩ := parts
      obtain ⟨hname, -⟩ := Text.splitFirst?_eq_some_iff.mp hsplit
      -- What stands before the last dot must not be empty: a name that starts with its only dot has
      -- no extension.
      have hbefore : before ≠ [] := fun hnil => by simp [hsplit, hnil] at h
      have hextension : extension.toList = reversed.reverse := by
        simp only [hsplit, if_neg hbefore, Option.some.injEq] at h
        rw [← h, String.toList_ofList]
      have hname' : before.reverse ++ '.' :: extension.toList = name.toList := by
        rw [← List.reverse_reverse name.toList, hname, hextension]
        simp
      refine ⟨⟨before.reverse, hname'⟩, fun hall => hbefore ?_⟩
      rw [← hname'] at hall
      simpa using hall
  · rintro ⟨⟨before, hname⟩, hall⟩
    have hbefore : before.reverse ≠ [] := fun hnil => by
      rw [List.reverse_eq_nil_iff.mp hnil] at hname
      exact hall hname
    have hsplit : Text.splitFirst? '.' name.toList.reverse =
        some (extension.toList.reverse, before.reverse) := by
      rw [Text.splitFirst?_eq_some_iff, ← hname]
      exact ⟨by simp, by simpa using hdot⟩
    simp only [Path.extension?, hsplit, if_neg hbefore, List.reverse_reverse, String.ofList_toList]

/-! ## Names of tables -/

/-- The name ends like that of a table. -/
def IsTable (name : String) : Prop := Path.endsWith name ".csv" = true

/-- The name begins like those of the tables that the solver library leaves behind. -/
def IsSideFile (name : String) : Prop := Path.startsWith name "libtetrisched_" = true

theorem extension?_csv_iff {name : String} :
    Path.extension? name = some "csv" ↔ IsTable name ∧ name ≠ ".csv" :=
  extension?_eq_some_iff (by decide)

theorem fits_trace_iff {name : String} :
    FilePattern.trace.fits name = true ↔ IsTable name ∧ ¬ IsSideFile name := by
  simp [FilePattern.fits, FilePattern.trace, IsTable, IsSideFile]

theorem not_isSideFile_csv : ¬ IsSideFile ".csv" := by
  unfold IsSideFile
  decide

/-! ## Names in order -/

theorem sorted_sortNames (names : List String) : (sortNames names).Pairwise (· ≤ ·) := by
  rw [sortNames]
  refine (List.pairwise_mergeSort ?_ ?_ names).imp fun hab => of_decide_eq_true hab
  · intro a b c hab hbc
    exact decide_eq_true ((of_decide_eq_true hab).trans (of_decide_eq_true hbc))
  · intro a b
    simpa using le_total a b

theorem sortNames_perm {names names' : List String} (h : names.Perm names') :
    sortNames names = sortNames names' := by
  have hperm : (sortNames names).Perm (sortNames names') :=
    (List.mergeSort_perm _ _).trans (h.trans (List.mergeSort_perm _ _).symm)
  exact hperm.eq_of_pairwise (fun a b _ _ hab hba => le_antisymm hab hba) (sorted_sortNames names)
    (sorted_sortNames names')

/-! ## The two tests -/

section Directory

variable {s : Storage} {dir : String} {entries : List (String × Node)}

theorem mem_fileNames {name : String} :
    name ∈ RunFiles.fileNames entries ↔ ∃ e ∈ entries, e.2.isFile = true ∧ e.1 = name := by
  unfold RunFiles.fileNames sortNames
  rw [(List.mergeSort_perm _ _).mem_iff]
  simp [and_assoc]

theorem mem_directoryNames {name : String} :
    name ∈ Sweep.directoryNames entries ↔ ∃ e ∈ entries, e.2.isFile = false ∧ e.1 = name := by
  unfold Sweep.directoryNames sortNames
  rw [(List.mergeSort_perm _ _).mem_iff]
  simp [and_assoc]

theorem join_ne {name : String} (h : name ≠ "") : Path.join dir name ≠ dir := by
  intro heq
  have hlength := congrArg String.length heq
  have hname : name.length ≠ 0 := fun hzero => h (String.length_eq_zero_iff.mp hzero)
  unfold Path.join at hlength
  split at hlength
  · rw [String.length_append] at hlength
    omega
  · rw [String.length_append, String.length_append] at hlength
    omega

/-- A sweep looks for a table with a name of its own. -/
theorem any_isTrace_iff :
    entries.any Sweep.isTrace = true ↔
      ∃ name ∈ RunFiles.fileNames entries, IsTable name ∧ name ≠ ".csv" := by
  simp only [List.any_eq_true, Sweep.isTrace, Bool.and_eq_true, decide_eq_true_eq,
    extension?_csv_iff, mem_fileNames]
  constructor
  · rintro ⟨e, he, hfile, htable⟩
    exact ⟨e.1, ⟨e, he, hfile, rfl⟩, htable⟩
  · rintro ⟨name, ⟨e, he, hfile, rfl⟩, htable⟩
    exact ⟨e, he, hfile, htable⟩

/-- A run looks for a table that is not of the solver library. -/
theorem find_trace_iff :
    (∃ trace, RunFiles.find dir (RunFiles.fileNames entries) .trace = .ok trace) ↔
      ∃ name ∈ RunFiles.fileNames entries, IsTable name ∧ ¬ IsSideFile name := by
  simp only [← fits_trace_iff, ← List.find?_isSome, RunFiles.find]
  cases (RunFiles.fileNames entries).find? FilePattern.trace.fits <;> simp

/-- With a configuration and a log in the directory, the trace decides. -/
theorem discover_ok_iff {config log : String} (hlist : s.list dir = .ok entries)
    (hconfig : RunFiles.find dir (RunFiles.fileNames entries) .config = .ok config)
    (hlog : RunFiles.find dir (RunFiles.fileNames entries) .log = .ok log) :
    (∃ files, RunFiles.discover s dir = .ok files) ↔
      ∃ trace, RunFiles.find dir (RunFiles.fileNames entries) .trace = .ok trace := by
  have hdiscover : RunFiles.discover s dir =
      (RunFiles.find dir (RunFiles.fileNames entries) .trace).map fun trace =>
        ⟨dir, config, log, trace⟩ := by
    simp only [RunFiles.discover, hlist, RunFiles.ofEntries, hconfig, hlog]
    cases RunFiles.find dir (RunFiles.fileNames entries) .trace <;> rfl
  rw [hdiscover]
  cases RunFiles.find dir (RunFiles.fileNames entries) .trace <;> simp [Except.map]

/-- A directory with subdirectories stands for itself if it holds a table with a name of its own,
and else for its subdirectories. -/
theorem expand_eq (hlist : s.list dir = .ok entries) (hsub : ∃ e ∈ entries, e.2.isFile = false) :
    Sweep.expand s dir =
      if entries.any Sweep.isTrace then [dir]
      else (Sweep.directoryNames entries).map (Path.join dir) := by
  have hne : (Sweep.directoryNames entries).isEmpty = false := by
    obtain ⟨e, he, hdirectory⟩ := hsub
    rw [List.isEmpty_eq_false_iff]
    exact List.ne_nil_of_mem (mem_directoryNames.mpr ⟨e, he, hdirectory, rfl⟩)
  simp only [Sweep.expand, hlist, hne, Bool.or_false]

theorem expand_eq_self_iff (hnames : ∀ e ∈ entries, e.1 ≠ "") (hlist : s.list dir = .ok entries)
    (hsub : ∃ e ∈ entries, e.2.isFile = false) :
    Sweep.expand s dir = [dir] ↔ entries.any Sweep.isTrace = true := by
  rw [expand_eq hlist hsub]
  constructor
  · intro h
    by_contra htrace
    rw [if_neg htrace] at h
    -- Then the directory would be one of its own subdirectories.
    have hmem : dir ∈ (Sweep.directoryNames entries).map (Path.join dir) := by
      rw [h]
      exact List.mem_singleton_self dir
    obtain ⟨name, hname, hjoin⟩ := List.mem_map.mp hmem
    obtain ⟨e, he, -, rfl⟩ := mem_directoryNames.mp hname
    exact join_ne (hnames e he) hjoin
  · intro htrace
    rw [if_pos htrace]

end Directory

/-- The two tests agree on names unless all tables are of the solver library, or the only table has
no name but the ending. -/
theorem tests_agree_iff {names : List String} :
    ((∃ name ∈ names, IsTable name ∧ name ≠ ".csv") ↔
        ∃ name ∈ names, IsTable name ∧ ¬ IsSideFile name) ↔
      (∀ name ∈ names, ¬ IsTable name) ∨
        ∃ a ∈ names, ∃ b ∈ names, IsTable a ∧ a ≠ ".csv" ∧ IsTable b ∧ ¬ IsSideFile b := by
  constructor
  · intro hagree
    by_cases hany : ∃ name ∈ names, IsTable name ∧ name ≠ ".csv"
    · obtain ⟨a, ha, htable, hname⟩ := hany
      obtain ⟨b, hb, htable', hside⟩ := hagree.mp ⟨a, ha, htable, hname⟩
      exact Or.inr ⟨a, ha, b, hb, htable, hname, htable', hside⟩
    · -- The one name that only a run takes for a table is no side file, so it is found.
      refine Or.inl fun name hname htable => ?_
      by_cases hcsv : name = ".csv"
      · exact hany (hagree.mpr ⟨name, hname, htable, hcsv ▸ not_isSideFile_csv⟩)
      · exact hany ⟨name, hname, htable, hcsv⟩
  · rintro (hnone | ⟨a, ha, b, hb, htable, hname, htable', hside⟩)
    · constructor
      · rintro ⟨name, hname, htable, -⟩
        exact absurd htable (hnone name hname)
      · rintro ⟨name, hname, htable, -⟩
        exact absurd htable (hnone name hname)
    · exact ⟨fun _ => ⟨b, hb, htable', hside⟩, fun _ => ⟨a, ha, htable, hname⟩⟩

/-- A directory with subdirectories, a configuration and a log is kept as a run by a sweep if it
holds a table with a name of its own, and else replaced by its subdirectories. This is the case in
which a trace is found in it, but for the directories whose tables are all of the solver library and
those whose only table has no name but the ending. -/
theorem kept_iff_trace_found_iff {s : Storage} {dir config log : String}
    {entries : List (String × Node)} (hnames : ∀ e ∈ entries, e.1 ≠ "")
    (hlist : s.list dir = .ok entries) (hsub : ∃ e ∈ entries, e.2.isFile = false)
    (hconfig : RunFiles.find dir (RunFiles.fileNames entries) .config = .ok config)
    (hlog : RunFiles.find dir (RunFiles.fileNames entries) .log = .ok log) :
    (Sweep.expand s dir = [dir] ↔
        ∃ name ∈ RunFiles.fileNames entries, IsTable name ∧ name ≠ ".csv") ∧
      (Sweep.expand s dir ≠ [dir] →
        Sweep.expand s dir = (Sweep.directoryNames entries).map (Path.join dir)) ∧
      ((Sweep.expand s dir = [dir] ↔ ∃ files, RunFiles.discover s dir = .ok files) ↔
        (∀ name ∈ RunFiles.fileNames entries, ¬ IsTable name) ∨
          ∃ a ∈ RunFiles.fileNames entries, ∃ b ∈ RunFiles.fileNames entries,
            IsTable a ∧ a ≠ ".csv" ∧ IsTable b ∧ ¬ IsSideFile b) := by
  have hkept : Sweep.expand s dir = [dir] ↔
      ∃ name ∈ RunFiles.fileNames entries, IsTable name ∧ name ≠ ".csv" :=
    (expand_eq_self_iff hnames hlist hsub).trans any_isTrace_iff
  refine ⟨hkept, fun hne => ?_, ?_⟩
  · rw [ne_eq, expand_eq_self_iff hnames hlist hsub] at hne
    rw [expand_eq hlist hsub, if_neg hne]
  · rw [hkept, discover_ok_iff hlist hconfig hlog, find_trace_iff]
    exact tests_agree_iff

/-- The entries of a directory of runs that also holds one table, a configuration and a log. -/
def sweepEntries (table : String) : List (String × Node) :=
  [(table, .file []), ("sweep.conf", .file []), ("sweep.log", .file []),
    ("edf", .directory [("edf.csv", .file [])])]

/-- Such a directory and nothing else. -/
def sweepStorage (table : String) : Storage :=
  .ofNode (.directory [("sweep", .directory (sweepEntries table))])

theorem fileNames_sweepEntries (table : String)
    (h : [table, "sweep.conf", "sweep.log"].Pairwise (· ≤ ·)) :
    RunFiles.fileNames (sweepEntries table) = [table, "sweep.conf", "sweep.log"] := by
  have hfiles : ((sweepEntries table).filter fun e => e.2.isFile).map Prod.fst =
      [table, "sweep.conf", "sweep.log"] := rfl
  rw [RunFiles.fileNames, sortNames, hfiles]
  exact List.mergeSort_of_pairwise (h.imp fun hle => by simpa using hle)

theorem sweepStorage_kept :
    Sweep.expand (sweepStorage "edf.csv") "sweep" = ["sweep"] ↔
      ∃ files, RunFiles.discover (sweepStorage "edf.csv") "sweep" = .ok files := by
  have hlist : (sweepStorage "edf.csv").list "sweep" = .ok (sweepEntries "edf.csv") := rfl
  have hsub : ∃ e ∈ sweepEntries "edf.csv", e.2.isFile = false :=
    ⟨("edf", .directory [("edf.csv", .file [])]), by simp [sweepEntries], rfl⟩
  have hnames := fileNames_sweepEntries "edf.csv" (by decide)
  have hconfig : RunFiles.find "sweep" (RunFiles.fileNames (sweepEntries "edf.csv")) .config =
      .ok "sweep/sweep.conf" := by
    rw [hnames]
    rfl
  have hlog : RunFiles.find "sweep" (RunFiles.fileNames (sweepEntries "edf.csv")) .log =
      .ok "sweep/sweep.log" := by
    rw [hnames]
    rfl
  obtain ⟨-, -, hagree⟩ :=
    kept_iff_trace_found_iff (by simp [sweepEntries]) hlist hsub hconfig hlog
  have hmem : "edf.csv" ∈ RunFiles.fileNames (sweepEntries "edf.csv") := by
    rw [hnames]
    exact List.mem_cons_self
  refine hagree.mpr (Or.inr ⟨"edf.csv", hmem, "edf.csv", hmem, ?_⟩)
  unfold IsTable IsSideFile
  decide

/-- A table of the solver library hides the runs of a sweep, since no trace is found beside it. And
a trace without a name is found, but the directory is taken for a sweep. -/
theorem sweepStorage_misjudged :
    Sweep.expand (sweepStorage "libtetrisched_edf.csv") "sweep" = ["sweep"] ∧
      RunFiles.discover (sweepStorage "libtetrisched_edf.csv") "sweep" =
        .error (.missingFile "sweep" "trace (*.csv)") ∧
      Sweep.expand (sweepStorage ".csv") "sweep" = ["sweep/edf"] ∧
      RunFiles.discover (sweepStorage ".csv") "sweep" =
        .ok ⟨"sweep", "sweep/sweep.conf", "sweep/sweep.log", "sweep/.csv"⟩ := by
  have hlist : (sweepStorage "libtetrisched_edf.csv").list "sweep" =
      .ok (sweepEntries "libtetrisched_edf.csv") := rfl
  have hlist' : (sweepStorage ".csv").list "sweep" = .ok (sweepEntries ".csv") := rfl
  have hdirectories : Sweep.directoryNames (sweepEntries ".csv") = ["edf"] :=
    List.mergeSort_singleton "edf"
  refine ⟨?_, ?_, ?_, ?_⟩
  · rw [Sweep.expand, hlist]
    rfl
  · rw [RunFiles.discover, hlist]
    simp only [RunFiles.ofEntries, fileNames_sweepEntries "libtetrisched_edf.csv" (by decide)]
    rfl
  · rw [Sweep.expand, hlist']
    simp only [hdirectories]
    rfl
  · rw [RunFiles.discover, hlist']
    simp only [RunFiles.ofEntries, fileNames_sweepEntries ".csv" (by decide)]
    rfl

end ClusterTrace
