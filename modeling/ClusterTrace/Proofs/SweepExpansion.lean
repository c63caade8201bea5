import ClusterTrace.Proofs.RunDirectories
import ClusterTrace.Proofs.StorageTrees
import Mathlib.Algebra.BigOperators.Group.List.Basic

/-!
# The runs of a sweep

Each path that is asked for contributes at least one run: itself, or all subdirectories of a
directory without a trace. The contributions follow each other in the order of the paths.
Directories may list their entries in any order, and in another one each time they are scanned.
-/

namespace ClusterTrace.Sweep

/-- The directory at the path holds a regular file with the extension of a trace. -/
def HoldsTrace (s : Storage) (path : String) : Prop :=
  ∃ stem, stem ≠ "" ∧ s.HasEntry path (stem ++ ".csv") ∧
    s.IsFile (Path.join path (stem ++ ".csv"))

/-- The run is a subdirectory of the directory at the path. -/
def IsChild (s : Storage) (path run : String) : Prop :=
  ∃ name, s.HasEntry path name ∧ run = Path.join path name ∧ s.IsDirectory run

/-- The runs that one path contributes. -/
inductive StandsFor (s : Storage) (path : String) : List String → Prop
  | itself (h : ¬ s.IsDirectory path ∨ HoldsTrace s path ∨ ∀ run, ¬ IsChild s path run) :
      StandsFor s path [path]
  | children {runs : List String} (directory : s.IsDirectory path) (noTrace : ¬ HoldsTrace s path)
      (ne_nil : runs ≠ []) (mem_iff : ∀ run, run ∈ runs ↔ IsChild s path run)
      (nodup : runs.Nodup) (ordered : runs.Pairwise Path.Precedes) : StandsFor s path runs

/-- What a directory stands for if one scan looks for a trace and another one for subdirectories. -/
def ofScans (path : String) (first second : List (String × Node)) : List String :=
  if first.any isTrace || (directoryNames second).isEmpty then [path]
  else (directoryNames second).map (Path.join path)

variable {s s' : Storage} {path : String} {runs : List String}

/-! ## What a path stands for -/

namespace StandsFor

theorem runs_ne_nil (h : StandsFor s path runs) : runs ≠ [] := by
  cases h with
  | itself _ => exact List.cons_ne_nil _ _
  | children _ _ ne_nil _ _ _ => exact ne_nil

/-- Subdirectories in order are determined by which ones there are. A path that stands for itself
does not stand for subdirectories as well. -/
theorem unique {runs' : List String} (h : StandsFor s path runs) (h' : StandsFor s path runs') :
    runs = runs' := by
  have hother : ∀ {runs : List String}, s.IsDirectory path → ¬ HoldsTrace s path → runs ≠ [] →
      (∀ run, run ∈ runs ↔ IsChild s path run) →
      ¬ (¬ s.IsDirectory path ∨ HoldsTrace s path ∨ ∀ run, ¬ IsChild s path run) := by
    rintro runs directory noTrace ne_nil mem_iff (h | h | h)
    · exact h directory
    · exact noTrace h
    · obtain ⟨run, hrun⟩ := List.exists_mem_of_ne_nil runs ne_nil
      exact h run ((mem_iff run).mp hrun)
  cases h with
  | itself h =>
    cases h' with
    | itself _ => rfl
    | children directory noTrace ne_nil mem_iff _ _ =>
      exact absurd h (hother directory noTrace ne_nil mem_iff)
  | children directory noTrace ne_nil mem_iff nodup ordered =>
    cases h' with
    | itself h => exact absurd h (hother directory noTrace ne_nil mem_iff)
    | children _ _ _ mem_iff' nodup' ordered' =>
      have hperm : runs.Perm runs' := by
        rw [List.perm_ext_iff_of_nodup nodup nodup']
        exact fun run => (mem_iff run).trans (mem_iff' run).symm
      exact hperm.eq_of_pairwise (fun a b _ _ hab hba => absurd hba hab.asymm) ordered ordered'

end StandsFor

theorem HoldsTrace.of_relisted (h : s.Relisted s') (proper : s.root.Proper)
    (htrace : HoldsTrace s path) : HoldsTrace s' path := by
  obtain ⟨stem, hstem, hentry, hfile⟩ := htrace
  exact ⟨stem, hstem, h.hasEntry proper hentry, h.isFile proper hfile⟩

theorem IsChild.of_relisted {run : String} (h : s.Relisted s') (proper : s.root.Proper)
    (hchild : IsChild s path run) : IsChild s' path run := by
  obtain ⟨name, hentry, hrun, hdirectory⟩ := hchild
  exact ⟨name, h.hasEntry proper hentry, hrun, h.isDirectory proper hdirectory⟩

theorem StandsFor.of_relisted (h : s.Relisted s') (proper : s.root.Proper)
    (hstands : StandsFor s path runs) : StandsFor s' path runs := by
  have proper' := proper.of_relisted h.root
  have hdirectory : s'.IsDirectory path → s.IsDirectory path := h.symm.isDirectory proper'
  have htrace : HoldsTrace s' path → HoldsTrace s path := .of_relisted h.symm proper'
  have hchild : ∀ run, IsChild s' path run → IsChild s path run :=
    fun run => .of_relisted h.symm proper'
  cases hstands with
  | itself hitself =>
    refine .itself ?_
    rcases hitself with hnot | hholds | hnone
    · exact Or.inl fun h' => hnot (hdirectory h')
    · exact Or.inr (Or.inl (hholds.of_relisted h proper))
    · exact Or.inr (Or.inr fun run h' => hnone run (hchild run h'))
  | children directory noTrace ne_nil mem_iff nodup ordered =>
    refine .children (h.isDirectory proper directory) (fun h' => noTrace (htrace h')) ne_nil ?_
      nodup ordered
    intro run
    rw [mem_iff]
    exact ⟨.of_relisted h proper, hchild run⟩

/-! ## Scanning a directory -/

/-- A name with the extension of a trace. -/
theorem extension?_csv_iff_exists {name : String} :
    Path.extension? name = some "csv" ↔ ∃ stem, stem ≠ "" ∧ name = stem ++ ".csv" := by
  rw [extension?_csv_iff, IsTable, Path.endsWith_iff]
  constructor
  · rintro ⟨⟨stem, rfl⟩, hne⟩
    refine ⟨stem, ?_, rfl⟩
    rintro rfl
    exact hne rfl
  · rintro ⟨stem, hne, rfl⟩
    exact ⟨⟨stem, rfl⟩, fun heq => hne (by simpa using heq)⟩

section Scan

variable {listed : List (String × Node)}

theorem any_isTrace_iff_holdsTrace (proper : s.root.Proper) (h : s.list path = .ok listed) :
    listed.any isTrace = true ↔ HoldsTrace s path := by
  simp only [List.any_eq_true, isTrace, Bool.and_eq_true, decide_eq_true_eq,
    extension?_csv_iff_exists]
  constructor
  · rintro ⟨⟨_, node⟩, hmem, hfile, stem, hne, rfl⟩
    obtain ⟨hentry, hlookup⟩ := (Storage.mem_list_iff proper h).mp hmem
    cases node with
    | file content => exact ⟨stem, hne, hentry, content, hlookup⟩
    | directory entries => cases hfile
  · rintro ⟨stem, hne, hentry, content, hlookup⟩
    exact ⟨(stem ++ ".csv", .file content), (Storage.mem_list_iff proper h).mpr ⟨hentry, hlookup⟩,
      rfl, stem, hne, rfl⟩

theorem mem_directoryNames_iff (proper : s.root.Proper) (h : s.list path = .ok listed)
    {name : String} : name ∈ directoryNames listed ↔
      s.HasEntry path name ∧ s.IsDirectory (Path.join path name) := by
  rw [mem_directoryNames]
  constructor
  · rintro ⟨⟨_, node⟩, hmem, hdirectory, rfl⟩
    obtain ⟨hentry, hlookup⟩ := (Storage.mem_list_iff proper h).mp hmem
    cases node with
    | file content => cases hdirectory
    | directory entries => exact ⟨hentry, entries, hlookup⟩
  · rintro ⟨hentry, entries, hlookup⟩
    exact ⟨(name, .directory entries), (Storage.mem_list_iff proper h).mpr ⟨hentry, hlookup⟩, rfl,
      rfl⟩

theorem sorted_directoryNames (proper : s.root.Proper) (h : s.list path = .ok listed) :
    (directoryNames listed).Pairwise (· < ·) := by
  have hnodup : (directoryNames listed).Nodup := by
    rw [directoryNames, sortNames, (List.mergeSort_perm _ _).nodup_iff]
    exact (Storage.nodup_of_list proper h).sublist (List.filter_sublist.map _)
  exact ((sorted_sortNames _).and hnodup).imp fun hab => lt_of_le_of_ne hab.1 hab.2

/-- Neither scan depends on the order of the entries. -/
theorem ofScans_perm {first second : List (String × Node)} (hfirst : first.Perm listed)
    (hsecond : second.Perm listed) : ofScans path first second = ofScans path listed listed := by
  have hnames : directoryNames second = directoryNames listed :=
    sortNames_perm ((hsecond.filter _).map _)
  rw [ofScans, ofScans, hfirst.any_eq, hnames]

theorem mem_children_iff (proper : s.root.Proper) (h : s.list path = .ok listed) {run : String} :
    run ∈ (directoryNames listed).map (Path.join path) ↔ IsChild s path run := by
  rw [List.mem_map]
  constructor
  · rintro ⟨name, hname, rfl⟩
    obtain ⟨hentry, hat⟩ := (mem_directoryNames_iff proper h).mp hname
    exact ⟨name, hentry, rfl, hat⟩
  · rintro ⟨name, hentry, rfl, hat⟩
    exact ⟨name, (mem_directoryNames_iff proper h).mpr ⟨hentry, hat⟩, rfl⟩

/-- Children of one directory differ in their last part only, which is their name. -/
theorem ordered_children (proper : s.root.Proper) (h : s.list path = .ok listed) :
    ((directoryNames listed).map (Path.join path)).Pairwise Path.Precedes := by
  obtain ⟨entries, hentries⟩ := Storage.isDirectory_of_list h
  have hname : ∀ name ∈ directoryNames listed, Node.IsEntryName name := by
    intro name hmem
    exact Storage.isEntryName_of_hasEntry proper ((mem_directoryNames_iff proper h).mp hmem).1
  rw [List.pairwise_map]
  refine (sorted_directoryNames proper h).imp_of_mem fun {a b} ha hb hab => ?_
  exact Path.precedes_join (Storage.ne_empty_of_lookup hentries) (hname a ha) (hname b hb) hab

theorem standsFor_ofScans (proper : s.root.Proper) (h : s.list path = .ok listed) :
    StandsFor s path (ofScans path listed listed) := by
  unfold ofScans
  by_cases htrace : listed.any isTrace = true
  · rw [if_pos (by simp [htrace])]
    exact .itself (Or.inr (Or.inl ((any_isTrace_iff_holdsTrace proper h).mp htrace)))
  by_cases hnone : directoryNames listed = []
  · rw [if_pos (by simp [hnone])]
    refine .itself (Or.inr (Or.inr fun run hrun => ?_))
    rw [← mem_children_iff proper h, hnone] at hrun
    cases hrun
  rw [if_neg (by simp [htrace, hnone])]
  have hordered := ordered_children proper h
  refine .children (Storage.isDirectory_of_list h) ?_ (by simpa using hnone)
    (fun run => mem_children_iff proper h) ?_ hordered
  · rw [← any_isTrace_iff_holdsTrace proper h]
    exact htrace
  · refine hordered.imp fun hab heq => ?_
    subst heq
    exact hab.asymm hab

end Scan

theorem standsFor_expand (proper : s.root.Proper) (path : String) :
    StandsFor s path (expand s path) := by
  cases hlist : s.list path with
  | ok listed =>
    have hexpand : expand s path = ofScans path listed listed := by rw [expand, hlist, ofScans]
    rw [hexpand]
    exact standsFor_ofScans proper hlist
  | error fault =>
    have hexpand : expand s path = [path] := by rw [expand, hlist]
    rw [hexpand]
    refine .itself (Or.inl ?_)
    rintro ⟨entries, hentries⟩
    have hok := Storage.list_eq_ok_iff.mpr ⟨entries, hentries, rfl⟩
    rw [hlist] at hok
    cases hok

/-! ## What some paths stand for -/

theorem count_le_count_expandAll {run : String} (h : run ∈ expand s path) (paths : List String) :
    paths.count path ≤ (expandAll s paths).count run := by
  induction paths with
  | nil => exact Nat.zero_le _
  | cons p paths ih =>
    have hcount : (expandAll s (p :: paths)).count run =
        (expand s p).count run + (expandAll s paths).count run := by
      rw [expandAll, List.flatMap_cons, List.count_append, expandAll]
    rw [hcount, List.count_cons]
    by_cases hp : p = path
    · subst hp
      have hone : 1 ≤ (expand s p).count run := List.one_le_count_iff.mpr h
      simp only [beq_self_eq_true, if_true]
      omega
    · simp only [beq_iff_eq, hp, if_false]
      omega

theorem length_le_length_expandAll (proper : s.root.Proper) (paths : List String) :
    paths.length ≤ (expandAll s paths).length := by
  rw [expandAll, List.length_flatMap, ← List.length_map fun path => (expand s path).length]
  refine List.length_le_sum_of_one_le _ fun n hn => ?_
  obtain ⟨path, -, rfl⟩ := List.mem_map.mp hn
  exact List.length_pos_iff.mpr (standsFor_expand proper path).runs_ne_nil

/-- Every path contributes what it stands for, in the order of the paths, whatever order directories
list their entries in. So no path is passed over, and one that is asked for twice is run twice. -/
theorem expandAll_inOrder (proper : s.root.Proper) (paths : List String) :
    (∃ contributions, List.Forall₂ (StandsFor s) paths contributions ∧
        expandAll s paths = contributions.flatten) ∧
    (∀ path runs, StandsFor s path runs → runs ≠ [] ∧ runs = expand s path) ∧
    (∀ path listed first second, s.list path = .ok listed → first.Perm listed →
      second.Perm listed → ofScans path first second = expand s path) ∧
    (∀ s', s.Relisted s' → expandAll s' paths = expandAll s paths) ∧
    (∀ more, expandAll s (paths ++ more) = expandAll s paths ++ expandAll s more) ∧
    paths.length ≤ (expandAll s paths).length ∧
    ∀ path, ∀ run ∈ expand s path, paths.count path ≤ (expandAll s paths).count run := by
  refine ⟨⟨paths.map (expand s), ?_, rfl⟩, ?_, ?_, ?_, ?_, ?_, ?_⟩
  · rw [List.forall₂_map_right_iff, List.forall₂_same]
    exact fun path _ => standsFor_expand proper path
  · intro path runs h
    exact ⟨h.runs_ne_nil, h.unique (standsFor_expand proper path)⟩
  · intro path listed first second hlist hfirst hsecond
    rw [ofScans_perm hfirst hsecond, expand, hlist, ofScans]
  · intro s' h
    have hexpand : expand s' = expand s := by
      funext path
      refine StandsFor.unique (standsFor_expand (proper.of_relisted h.root) path) ?_
      exact (standsFor_expand proper path).of_relisted h proper
    rw [expandAll, hexpand, expandAll]
  · intro more
    exact List.flatMap_append
  · exact length_le_length_expandAll proper paths
  · intro path run hrun
    exact count_le_count_expandAll hrun paths

/-- A directory of two runs and a file in it. -/
def pairStorage (first second : String) : Storage :=
  .ofNode (.directory [("runs", .directory
    [(first, .directory []), ("runs.txt", .file []), (second, .directory [])])])

theorem pairStorage_inOrder :
    (pairStorage "fifo" "edf").root.Proper ∧
      (pairStorage "fifo" "edf").Relisted (pairStorage "edf" "fifo") ∧
      expandAll (pairStorage "fifo" "edf") ["runs", "absent", "runs"] =
        ["runs/edf", "runs/fifo", "absent", "runs/edf", "runs/fifo"] := by
  have hname : ∀ name ∈ ["here", "runs", "fifo", "runs.txt", "edf"], Node.IsEntryName name := by
    have hall : ∀ name ∈ ["here", "runs", "fifo", "runs.txt", "edf"], name ≠ "" ∧ name ≠ "." ∧
        name ≠ ".." ∧ '/' ∉ name.toList ∧ name.utf8ByteSize ≤ Node.maxNameSize := by decide
    intro name hmem
    obtain ⟨hempty, hdot, hdots, hslash, hsize⟩ := hall name hmem
    exact ⟨hempty, hdot, hdots, hslash, hsize⟩
  have hempty : (Node.directory []).Proper := .directory (by decide) (by simp) (by simp)
  have hruns : (Node.directory [("fifo", .directory []), ("runs.txt", .file []),
      ("edf", .directory [])]).Proper := by
    refine .directory (by decide) ?_ ?_
    · simp [hname]
    · simp [hempty, Node.Proper.file]
  have proper : (pairStorage "fifo" "edf").root.Proper := by
    refine .directory (by decide) (by simp [hname]) ?_
    simp only [List.forall_mem_singleton]
    exact .directory (by decide) (by simp [hname]) (by simp [hruns])
  have hrelisted : (pairStorage "fifo" "edf").Relisted (pairStorage "edf" "fifo") := by
    refine ⟨.directory (.refl _) ?_, rfl⟩
    simp only [List.forall_mem_singleton, true_imp_iff]
    refine .directory (.refl _) ?_
    simp only [List.forall_mem_singleton, true_imp_iff]
    exact hruns.relisted_of_perm (List.reverse_perm _).symm
  have hlist : (pairStorage "edf" "fifo").list "runs" =
      .ok [("edf", .directory []), ("runs.txt", .file []), ("fifo", .directory [])] := rfl
  have hnames : directoryNames [("edf", .directory []), ("runs.txt", .file []),
      ("fifo", .directory [])] = ["edf", "fifo"] :=
    List.mergeSort_of_pairwise (by decide)
  have habsent : expand (pairStorage "edf" "fifo") "absent" = ["absent"] := rfl
  have hpair : expand (pairStorage "edf" "fifo") "runs" = ["runs/edf", "runs/fifo"] := by
    rw [expand, hlist]
    simp only [hnames]
    decide
  refine ⟨proper, hrelisted, ?_⟩
  obtain ⟨-, -, -, hsame, -⟩ := expandAll_inOrder proper ["runs", "absent", "runs"]
  rw [← hsame _ hrelisted, expandAll]
  simp [hpair, habsent]

end ClusterTrace.Sweep
