import ClusterTrace.Proofs.ByteOrder
import ClusterTrace.Proofs.RunDirectories
import ClusterTrace.Proofs.StorageTrees
import ClusterTrace.Proofs.TraceRows

/-!
# The files that make up a run

Of the regular files of a directory that have a name of the right kind, the first by name in the
order of bytes is taken, and the first kind of which there is none is reported. So what is found
depends on the names of the regular files alone: not on the order in which the directory lists them,
not on its subdirectories, and not on files that come after those taken or are of no kind looked
for.
-/

namespace ClusterTrace

/-- The directory at the path has a regular file of the name. -/
def Storage.HasFile (s : Storage) (dir name : String) : Prop :=
  s.HasEntry dir name ∧ s.IsFile (Path.join dir name)

namespace RunFiles

/-- The name has an ending, and it does not have the start that is excluded, if any is. -/
def NameFits (ending : String) (excluded : Option String) (name : String) : Prop :=
  (∃ stem, name = stem ++ ending) ∧ ∀ start ∈ excluded, ¬ ∃ rest, name = start ++ rest

/-- The name of a configuration. -/
def IsConfigName : String → Prop := NameFits ".conf" none

def IsLogName : String → Prop := NameFits ".log" (some "tetrisched_")

def IsTraceName : String → Prop := NameFits ".csv" (some "libtetrisched_")

/-- The regular file with the least name of a kind, in the order of bytes. -/
structure Picked (s : Storage) (dir : String) (kind : String → Prop) (name : String) : Prop where
  file : s.HasFile dir name
  fits : kind name
  least : ∀ other, s.HasFile dir other → kind other → Utf8.encode name ≤ Utf8.encode other

/-- There is no regular file with a name of the kind. -/
def Lacks (s : Storage) (dir : String) (kind : String → Prop) : Prop :=
  ∀ name, s.HasFile dir name → ¬ kind name

/-- What is found in a directory: a file of each kind, or the first kind of which there is none. -/
inductive Found (s : Storage) (dir : String) : Except RunFault RunFiles → Prop
  | files {config log trace : String} (hconfig : Picked s dir IsConfigName config)
      (hlog : Picked s dir IsLogName log) (htrace : Picked s dir IsTraceName trace) :
      Found s dir
        (.ok ⟨dir, Path.join dir config, Path.join dir log, Path.join dir trace⟩)
  | noConfig (hconfig : Lacks s dir IsConfigName) :
      Found s dir (.error (.missingFile dir "config (*.conf)"))
  | noLog {config : String} (hconfig : Picked s dir IsConfigName config)
      (hlog : Lacks s dir IsLogName) : Found s dir (.error (.missingFile dir "log (*.log)"))
  | noTrace {config log : String} (hconfig : Picked s dir IsConfigName config)
      (hlog : Picked s dir IsLogName log) (htrace : Lacks s dir IsTraceName) :
      Found s dir (.error (.missingFile dir "trace (*.csv)"))

/-- The regular files of a directory are still there, and one that is new is of no kind looked for
or comes after the one taken. Subdirectories may be others. -/
structure Supplemented (s s' : Storage) (dir : String) : Prop where
  kept : ∀ name, s.HasFile dir name → s'.HasFile dir name
  added : ∀ name, s'.HasFile dir name → ¬ s.HasFile dir name →
    ∀ kind ∈ [IsConfigName, IsLogName, IsTraceName], kind name →
      ∃ taken, Picked s dir kind taken ∧ Utf8.encode taken < Utf8.encode name

/-! ## One kind of file -/

variable {s s' : Storage} {dir : String} {kind : String → Prop} {name : String}

/-- Of two files with least names each is at most the other, and the encoding of a name determines
the name. -/
theorem Picked.unique {other : String} (h : Picked s dir kind name)
    (h' : Picked s dir kind other) : name = other :=
  le_antisymm (Utf8.encode_le_iff.mp (h.least other h'.file h'.fits))
    (Utf8.encode_le_iff.mp (h'.least name h.file h.fits))

theorem Picked.not_lacks (h : Picked s dir kind name) : ¬ Lacks s dir kind :=
  fun hlacks => hlacks name h.file h.fits

/-- A file that is new and of the kind comes after the one taken, so the one taken keeps the least
name. -/
theorem Picked.of_supplemented (hmem : kind ∈ [IsConfigName, IsLogName, IsTraceName])
    (hsup : Supplemented s s' dir) (h : Picked s dir kind name) : Picked s' dir kind name := by
  refine ⟨hsup.kept name h.file, h.fits, fun other hother hfits => ?_⟩
  by_cases hold : s.HasFile dir other
  · exact h.least other hold hfits
  · obtain ⟨taken, htaken, hlt⟩ := hsup.added other hother hold kind hmem hfits
    obtain rfl := h.unique htaken
    exact List.le_of_lt hlt

/-- A file that is new and of the kind would come after one that was taken, and none was. -/
theorem Lacks.of_supplemented (hmem : kind ∈ [IsConfigName, IsLogName, IsTraceName])
    (hsup : Supplemented s s' dir) (h : Lacks s dir kind) : Lacks s' dir kind := by
  intro other hother hfits
  by_cases hold : s.HasFile dir other
  · exact h other hold hfits
  · obtain ⟨taken, htaken, -⟩ := hsup.added other hother hold kind hmem hfits
    exact htaken.not_lacks h

/-! ## What is found is determined by the files -/

/-- At most one thing is found in a directory: a kind of which a file is taken is not lacking, and
of each kind only one file can be taken. -/
theorem Found.unique {r r' : Except RunFault RunFiles} (h : Found s dir r) (h' : Found s dir r') :
    r = r' := by
  -- No kind of which a file is taken is lacking, so both are of the same form.
  cases h with
  | files hconfig hlog htrace =>
    cases h' with
    | files hconfig' hlog' htrace' =>
      rw [hconfig.unique hconfig', hlog.unique hlog', htrace.unique htrace']
    | noConfig hnone => exact absurd hnone hconfig.not_lacks
    | noLog _ hnone => exact absurd hnone hlog.not_lacks
    | noTrace _ _ hnone => exact absurd hnone htrace.not_lacks
  | noConfig hnone =>
    cases h' with
    | files hconfig' _ _ => exact absurd hnone hconfig'.not_lacks
    | noConfig _ => rfl
    | noLog hconfig' _ => exact absurd hnone hconfig'.not_lacks
    | noTrace hconfig' _ _ => exact absurd hnone hconfig'.not_lacks
  | noLog hconfig hnone =>
    cases h' with
    | files _ hlog' _ => exact absurd hnone hlog'.not_lacks
    | noConfig hnone' => exact absurd hnone' hconfig.not_lacks
    | noLog _ _ => rfl
    | noTrace _ hlog' _ => exact absurd hnone hlog'.not_lacks
  | noTrace hconfig hlog hnone =>
    cases h' with
    | files _ _ htrace' => exact absurd hnone htrace'.not_lacks
    | noConfig hnone' => exact absurd hnone' hconfig.not_lacks
    | noLog _ hnone' => exact absurd hnone' hlog.not_lacks
    | noTrace _ _ _ => rfl

/-- Each file that is taken is still taken, and each kind that is lacking is still lacking. -/
theorem Found.of_supplemented {r : Except RunFault RunFiles} (hsup : Supplemented s s' dir)
    (h : Found s dir r) : Found s' dir r := by
  have hconfigs : IsConfigName ∈ [IsConfigName, IsLogName, IsTraceName] := by simp
  have hlogs : IsLogName ∈ [IsConfigName, IsLogName, IsTraceName] := by simp
  have htraces : IsTraceName ∈ [IsConfigName, IsLogName, IsTraceName] := by simp
  cases h with
  | files hconfig hlog htrace =>
    exact .files (hconfig.of_supplemented hconfigs hsup) (hlog.of_supplemented hlogs hsup)
      (htrace.of_supplemented htraces hsup)
  | noConfig hnone => exact .noConfig (hnone.of_supplemented hconfigs hsup)
  | noLog hconfig hnone =>
    exact .noLog (hconfig.of_supplemented hconfigs hsup) (hnone.of_supplemented hlogs hsup)
  | noTrace hconfig hlog hnone =>
    exact .noTrace (hconfig.of_supplemented hconfigs hsup) (hlog.of_supplemented hlogs hsup)
      (hnone.of_supplemented htraces hsup)

/-! ## Searching the names in order -/

theorem fits_iff {p : FilePattern} : p.fits name = true ↔ NameFits p.ending p.excluded name := by
  obtain ⟨what, ending, excluded⟩ := p
  cases excluded with
  | none => simp [FilePattern.fits, NameFits, Path.endsWith_iff]
  | some start => simp [FilePattern.fits, NameFits, Path.endsWith_iff, ← Path.startsWith_iff]

/-- The first name that passes a test is the least one, if the names are in order. -/
theorem le_of_find?_eq_some {names : List String} (hsorted : names.Pairwise (· ≤ ·))
    {test : String → Bool} (h : names.find? test = some name) {other : String}
    (hother : other ∈ names) (htest : test other = true) : name ≤ other := by
  -- No name before the first match passes the test, and the names behind it are larger.
  obtain ⟨-, before, after, rfl, hbefore⟩ := List.find?_eq_some_iff_append.mp h
  have hafter := (List.pairwise_append.mp hsorted).2.1
  rcases List.mem_append.mp hother with hmem | hmem
  · have hfails := hbefore other hmem
    rw [htest] at hfails
    cases hfails
  · rcases List.mem_cons.mp hmem with rfl | hmem
    · exact le_refl _
    · exact (List.pairwise_cons.mp hafter).1 other hmem

section Listed

variable {listed : List (String × Node)} (proper : s.root.Proper) (h : s.list dir = .ok listed)
  {p : FilePattern}

include proper h

theorem hasFile_iff :
    s.HasFile dir name ↔ name ∈ (listed.filter fun e => e.2.isFile).map Prod.fst := by
  constructor
  · rintro ⟨hentry, content, hlookup⟩
    have hmem : (name, Node.file content) ∈ listed :=
      (Storage.mem_list_iff proper h).mpr ⟨hentry, hlookup⟩
    exact List.mem_map.mpr ⟨(name, .file content), List.mem_filter.mpr ⟨hmem, rfl⟩, rfl⟩
  · intro hname
    obtain ⟨⟨_, node⟩, hmem, rfl⟩ := List.mem_map.mp hname
    obtain ⟨hmem, hfile⟩ := List.mem_filter.mp hmem
    obtain ⟨hentry, hlookup⟩ := (Storage.mem_list_iff proper h).mp hmem
    cases node with
    | file content => exact ⟨hentry, content, hlookup⟩
    | directory entries => cases hfile

theorem mem_fileNames_iff : name ∈ fileNames listed ↔ s.HasFile dir name := by
  rw [fileNames, sortNames, (List.mergeSort_perm _ _).mem_iff, hasFile_iff proper h]

/-- The names are searched in the order of bytes, so the first that fits is the least. -/
theorem picked_of_find? (hfind : (fileNames listed).find? p.fits = some name) :
    Picked s dir (NameFits p.ending p.excluded) name := by
  refine ⟨?_, fits_iff.mp (List.find?_some hfind), fun other hother hfits => ?_⟩
  · exact (mem_fileNames_iff proper h).mp (List.mem_of_find?_eq_some hfind)
  · have hmem : other ∈ fileNames listed := (mem_fileNames_iff proper h).mpr hother
    exact Utf8.encode_le_iff.mpr
      (le_of_find?_eq_some (sorted_sortNames _) hfind hmem (fits_iff.mpr hfits))

/-- A search that finds nothing has seen the name of every regular file. -/
theorem lacks_of_find? (hfind : (fileNames listed).find? p.fits = none) :
    Lacks s dir (NameFits p.ending p.excluded) := by
  intro other hother hfits
  have hmem : other ∈ fileNames listed := (mem_fileNames_iff proper h).mpr hother
  exact List.find?_eq_none.mp hfind other hmem (fits_iff.mpr hfits)

/-- The kinds are looked for one after the other, so the first that is lacking is reported. -/
theorem found_ofEntries : Found s dir (ofEntries dir listed) := by
  unfold ofEntries
  cases hconfig : (fileNames listed).find? FilePattern.config.fits with
  | none =>
    simp only [find, hconfig]
    exact .noConfig (lacks_of_find? proper h hconfig)
  | some config =>
    have hconfig' := picked_of_find? proper h hconfig
    cases hlog : (fileNames listed).find? FilePattern.log.fits with
    | none =>
      simp only [find, hconfig, hlog]
      exact .noLog hconfig' (lacks_of_find? proper h hlog)
    | some log =>
      have hlog' := picked_of_find? proper h hlog
      cases htrace : (fileNames listed).find? FilePattern.trace.fits with
      | none =>
        simp only [find, hconfig, hlog, htrace]
        exact .noTrace hconfig' hlog' (lacks_of_find? proper h htrace)
      | some trace =>
        simp only [find, hconfig, hlog, htrace]
        exact .files hconfig' hlog' (picked_of_find? proper h htrace)

end Listed

/-- The names are sorted before they are searched, so the order of the entries does not matter. -/
theorem ofEntries_perm {listed order : List (String × Node)} (h : order.Perm listed) :
    ofEntries dir order = ofEntries dir listed := by
  have hnames : fileNames order = fileNames listed := sortNames_perm ((h.filter _).map _)
  rw [ofEntries, ofEntries, hnames]

/-- In every directory something is found: the files of a run or a kind that is lacking. -/
theorem found_discover (proper : s.root.Proper) (hdir : s.IsDirectory dir) :
    Found s dir (discover s dir) := by
  obtain ⟨entries, hentries⟩ := hdir
  have hlist := Storage.list_eq_ok_iff.mpr ⟨entries, hentries, rfl⟩
  have hdiscover := found_ofEntries proper hlist
  rw [discover, hlist]
  exact hdiscover

/-! ## Directories with the same files -/

/-- A tree with the same entries in another order has the same regular files, so none is new. -/
theorem Supplemented.of_relisted (proper : s.root.Proper) (h : s.Relisted s') :
    Supplemented s s' dir := by
  have proper' := proper.of_relisted h.root
  refine ⟨fun name hname => ?_, fun name hname hnew => absurd ?_ hnew⟩
  · exact ⟨h.hasEntry proper hname.1, h.isFile proper hname.2⟩
  · exact ⟨h.symm.hasEntry proper' hname.1, h.symm.isFile proper' hname.2⟩

/-- What is found in a directory is the first file of each kind by name, or the first kind that is
lacking. It is the same in whatever order the directory lists its entries, whatever subdirectories
there are, and whatever files are added that come after those found or are of no kind looked for. -/
theorem discover_canonical (proper : s.root.Proper) (hdir : s.IsDirectory dir) :
    (∀ r, discover s dir = r ↔ Found s dir r) ∧
    (∀ listed order, s.list dir = .ok listed → order.Perm listed →
      ofEntries dir order = discover s dir) ∧
    (∀ s', s.Relisted s' → discover s' dir = discover s dir) ∧
    ∀ s', s'.root.Proper → s'.IsDirectory dir → Supplemented s s' dir →
      discover s' dir = discover s dir := by
  have hfound := found_discover proper hdir
  have hsame : ∀ s', s'.root.Proper → s'.IsDirectory dir → Supplemented s s' dir →
      discover s' dir = discover s dir := by
    intro s' proper' hdir' hsup
    exact (found_discover proper' hdir').unique (hfound.of_supplemented hsup)
  refine ⟨fun r => ⟨?_, hfound.unique⟩, ?_, ?_, hsame⟩
  · rintro rfl
    exact hfound
  · intro listed order hlist horder
    rw [ofEntries_perm horder, discover, hlist]
  · intro s' h
    exact hsame s' (proper.of_relisted h.root) (h.isDirectory proper hdir)
      (.of_relisted proper h)

/-! ## A directory with more than the files of a run -/

/-- A directory with some entries and nothing else. -/
def runStorage (entries : List (String × Node)) : Storage :=
  .ofNode (.directory [("run", .directory entries)])

/-- The files of a run. -/
def plainEntries : List (String × Node) :=
  [("sim.log", .file []), ("b.conf", .file []), ("other.csv", .file [])]

/-- More entries: a subdirectory that is named like a configuration, a trace that comes later and
files of the solver library. -/
def crowdedEntries : List (String × Node) :=
  [("a.conf", .directory []), ("trace.csv", .file []), ("tetrisched_a.log", .file []),
    ("libtetrisched_a.csv", .file [])] ++ plainEntries

theorem proper_plainEntries : (runStorage plainEntries).root.Proper := by
  refine .singleton (by decide) (.singleton (by decide) (.directory (by decide) (by decide) ?_))
  simp [plainEntries, Node.Proper.file]

theorem proper_crowdedEntries : (runStorage crowdedEntries).root.Proper := by
  have hempty : (Node.directory []).Proper := .directory (by decide) (by decide) (by simp)
  refine .singleton (by decide) (.singleton (by decide) (.directory (by decide) (by decide) ?_))
  simp [crowdedEntries, plainEntries, hempty, Node.Proper.file]

theorem hasFile_plainEntries {name : String} :
    (runStorage plainEntries).HasFile "run" name ↔ name ∈ ["sim.log", "b.conf", "other.csv"] :=
  @hasFile_iff _ _ name plainEntries proper_plainEntries rfl

theorem hasFile_crowdedEntries {name : String} :
    (runStorage crowdedEntries).HasFile "run" name ↔
      name ∈ ["trace.csv", "tetrisched_a.log", "libtetrisched_a.csv"] ++
        ["sim.log", "b.conf", "other.csv"] :=
  @hasFile_iff _ _ name crowdedEntries proper_crowdedEntries rfl

/-- The least of the three names that fits a pattern is the one that is picked. -/
theorem picked_plainEntries {p : FilePattern} {name : String}
    (hname : name ∈ ["sim.log", "b.conf", "other.csv"]) (hfits : p.fits name = true)
    (hleast : ∀ other ∈ ["sim.log", "b.conf", "other.csv"], p.fits other = true → name ≤ other) :
    Picked (runStorage plainEntries) "run" (NameFits p.ending p.excluded) name := by
  refine ⟨hasFile_plainEntries.mpr hname, fits_iff.mp hfits, fun other hother hfits' => ?_⟩
  have hle := hleast other (hasFile_plainEntries.mp hother) (fits_iff.mpr hfits')
  exact Utf8.encode_le_iff.mpr hle

/-- Of the three files that are new, `trace.csv` comes after `other.csv`, and the others fit no
pattern. -/
theorem supplemented_crowdedEntries :
    Supplemented (runStorage plainEntries) (runStorage crowdedEntries) "run" := by
  refine ⟨fun name hname => ?_, fun name hname hnew kind hkind hfits => ?_⟩
  · exact hasFile_crowdedEntries.mpr (List.mem_append_right _ (hasFile_plainEntries.mp hname))
  have hmem : name ∈ ["trace.csv", "tetrisched_a.log", "libtetrisched_a.csv"] := by
    rcases List.mem_append.mp (hasFile_crowdedEntries.mp hname) with hmem | hmem
    · exact hmem
    · exact absurd (hasFile_plainEntries.mpr hmem) hnew
  obtain ⟨p, hp, rfl⟩ : ∃ p ∈ [FilePattern.config, .log, .trace],
      kind = NameFits p.ending p.excluded := by
    simp only [List.mem_cons, List.not_mem_nil, or_false] at hkind
    rcases hkind with rfl | rfl | rfl
    · exact ⟨.config, by decide, rfl⟩
    · exact ⟨.log, by decide, rfl⟩
    · exact ⟨.trace, by decide, rfl⟩
  have hlater : ∀ name ∈ ["trace.csv", "tetrisched_a.log", "libtetrisched_a.csv"],
      ∀ p ∈ [FilePattern.config, .log, .trace], p.fits name = true →
        p = .trace ∧ "other.csv" < name := by decide
  obtain ⟨rfl, hlt⟩ := hlater name hmem p hp (fits_iff.mpr hfits)
  exact ⟨"other.csv", picked_plainEntries (by decide) (by decide) (by decide),
    Utf8.encode_lt_iff.mpr hlt⟩

/-- The same three files are found in the plain directory, in one that lists its entries backwards,
and in the crowded one. -/
theorem crowdedEntries_found :
    discover (runStorage plainEntries) "run" =
        .ok ⟨"run", "run/b.conf", "run/sim.log", "run/other.csv"⟩ ∧
      ofEntries "run" plainEntries.reverse =
        .ok ⟨"run", "run/b.conf", "run/sim.log", "run/other.csv"⟩ ∧
      discover (runStorage crowdedEntries) "run" =
        .ok ⟨"run", "run/b.conf", "run/sim.log", "run/other.csv"⟩ := by
  have hlist : (runStorage plainEntries).list "run" = .ok plainEntries := rfl
  have hdir : (runStorage plainEntries).IsDirectory "run" := ⟨plainEntries, rfl⟩
  have hdir' : (runStorage crowdedEntries).IsDirectory "run" := ⟨crowdedEntries, rfl⟩
  have hconfig : Picked (runStorage plainEntries) "run" IsConfigName "b.conf" :=
    @picked_plainEntries .config "b.conf" (by decide) (by decide) (by decide)
  have hlog : Picked (runStorage plainEntries) "run" IsLogName "sim.log" :=
    @picked_plainEntries .log "sim.log" (by decide) (by decide) (by decide)
  have htrace : Picked (runStorage plainEntries) "run" IsTraceName "other.csv" :=
    @picked_plainEntries .trace "other.csv" (by decide) (by decide) (by decide)
  obtain ⟨hfound, horder, -, hsame⟩ := discover_canonical proper_plainEntries hdir
  have hdiscover := (hfound _).mpr (.files hconfig hlog htrace)
  refine ⟨hdiscover, ?_, ?_⟩
  · exact (horder plainEntries _ hlist (List.reverse_perm _)).trans hdiscover
  · exact (hsame _ proper_crowdedEntries hdir' supplemented_crowdedEntries).trans hdiscover

end RunFiles

end ClusterTrace
