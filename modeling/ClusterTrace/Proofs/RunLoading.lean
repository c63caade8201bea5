import ClusterTrace.Experiment.Run
import ClusterTrace.Proofs.RunDiscovery

/-!
# Loading a run

A run can be loaded if its files are found and each of them can be used. Then it has the label of
its directory, and each part of it is what its own file says.
-/

namespace ClusterTrace

/-- The run is that of the directory: each part of it is read from the file that was found for it,
and its label is that of the directory. -/
structure RunAnalysis.IsOf (s : Storage) (dir : String) (options : RunOptions) (run : RunAnalysis) :
    Prop where
  name : run.name = runName dir
  files : RunFiles.discover s dir = .ok run.files
  settings : loadSettings s run.files.config = .ok run.settings
  arrivalRates : run.arrivalRates = .ofList run.settings.arrivalRates
  trace : loadTrace s run.files.trace options.checkResources = .ok run.trace
  solverRecords : loadLog s run.files.log options.format = .ok run.solverRecords

variable {s : Storage} {dir path text : String} {options : RunOptions} {run : RunAnalysis}

/-- Files that are found are those of the directory that was searched, so a run can be told by its
files as well. -/
theorem RunFiles.dir_of_discover {files : RunFiles} (h : RunFiles.discover s dir = .ok files) :
    files.dir = dir := by
  unfold discover at h
  split at h
  · cases h
  · obtain ⟨config, -, h⟩ := bind_eq_ok_iff.mp h
    obtain ⟨log, -, h⟩ := bind_eq_ok_iff.mp h
    obtain ⟨trace, -, h⟩ := bind_eq_ok_iff.mp h
    cases h
    rfl

/-- Loading gives the run of the directory and nothing else. It fails if there is no such run,
whichever of the files is at fault. -/
theorem RunAnalysis.load_eq_ok_iff :
    RunAnalysis.load s dir options = .ok run ↔ run.IsOf s dir options := by
  constructor
  · intro h
    obtain ⟨files, hfiles, h⟩ := bind_eq_ok_iff.mp h
    obtain ⟨settings, hsettings, h⟩ := bind_eq_ok_iff.mp h
    obtain ⟨trace, htrace, h⟩ := bind_eq_ok_iff.mp h
    obtain ⟨records, hrecords, h⟩ := bind_eq_ok_iff.mp h
    cases h
    exact ⟨rfl, hfiles, hsettings, rfl, htrace, hrecords⟩
  · rintro ⟨hname, hfiles, hsettings, hrates, htrace, hrecords⟩
    obtain ⟨name, files, settings, rates, trace, records⟩ := run
    obtain rfl : name = runName dir := hname
    obtain rfl : rates = .ofList settings.arrivalRates := hrates
    refine bind_eq_ok_iff.mpr ⟨files, hfiles, bind_eq_ok_iff.mpr ⟨settings, hsettings, ?_⟩⟩
    exact bind_eq_ok_iff.mpr ⟨trace, htrace, bind_eq_ok_iff.mpr ⟨records, hrecords, rfl⟩⟩

theorem RunAnalysis.name_of_load (h : RunAnalysis.load s dir options = .ok run) :
    run.name = runName dir :=
  (load_eq_ok_iff.mp h).name

theorem RunAnalysis.dir_of_load (h : RunAnalysis.load s dir options = .ok run) :
    run.files.dir = dir :=
  RunFiles.dir_of_discover (load_eq_ok_iff.mp h).files

theorem Storage.readText_of_read (h : s.read path = .ok (Utf8.encode text)) :
    s.readText path = .ok text := by
  rw [readText, h]
  simp [Except.bind, Utf8.decode?_encode]

/-- Of a file that can be read the loaders only see the content: what they give and what they report
is what the reader of the content gives and reports. -/
theorem RunAnalysis.loadSettings_of_read (h : s.read path = .ok (Utf8.encode text)) :
    loadSettings s path = (Settings.parse text).mapError .settings := by
  rw [loadSettings, Storage.readText_of_read h]
  rfl

theorem RunAnalysis.loadTrace_of_read (h : s.read path = .ok (Utf8.encode text)) (check : Bool) :
    loadTrace s path check = (TraceAnalysis.ofBytes (Utf8.encode text) check).mapError .trace := by
  rw [loadTrace, Storage.readText_of_read h]
  rfl

/-- A log is read from its bytes, so whatever they are, it has records. -/
theorem RunAnalysis.loadLog_of_read {content : Bytes} (h : s.read path = .ok content)
    (format : LogFormat) : loadLog s path format = .ok (SolverRecord.ofLog format content) := by
  rw [loadLog, h]
  rfl

/-! ## A run on GPUs -/

/-- A trace of a pool with some GPUs and a task that runs on one of them. -/
def gpuTrace (amount : String) : String :=
  "0,WORKER_POOL,p,GPU," ++ amount ++ "\n0,TASK_GRAPH_RELEASE,0,9,g,1,1\n" ++
    "0,TASK_PLACEMENT,g,t,GPU,1\n5,TASK_FINISHED,g,t\n"

def gpuSettings : String := "--override_poisson_arrival_rates=1"

/-- The entries of a directory with the files of a run and nothing else. -/
def gpuRun (amount : String) : List (String × Node) :=
  [("r.conf", .file (Utf8.encode gpuSettings)), ("r.csv", .file (Utf8.encode (gpuTrace amount))),
    ("r.log", .file [])]

theorem proper_gpuRun (amount : String) : (Node.directory (gpuRun amount)).Proper := by
  have hfiles : ∀ name ∈ ["r.conf", "r.csv", "r.log"], Node.IsEntryName name := by decide
  refine .directory (by simp [gpuRun]) ?_ ?_
  · simpa [gpuRun] using hfiles
  · simp [gpuRun, Node.Proper.file]

theorem RunFiles.ofEntries_gpuRun (dir amount : String) : RunFiles.ofEntries dir (gpuRun amount) =
    .ok ⟨dir, Path.join dir "r.conf", Path.join dir "r.log", Path.join dir "r.csv"⟩ := by
  have hsorted : ["r.conf", "r.csv", "r.log"].Pairwise fun a b => decide (a ≤ b) = true := by
    decide
  have hnames : RunFiles.fileNames (gpuRun amount) = ["r.conf", "r.csv", "r.log"] :=
    List.mergeSort_of_pairwise hsorted
  rw [ofEntries, hnames]
  rfl

theorem exists_gpuSettings : ∃ settings, Settings.parse gpuSettings = .ok settings := by
  have hok : (Settings.parse gpuSettings).toOption.any (fun _ => true) = true := by decide +kernel
  obtain ⟨settings, hsettings, -⟩ := exists_of_any_toOption hok
  exact ⟨settings, hsettings⟩

theorem exists_gpuTrace {amount : String} (h : amount ∈ ["1", "2"]) :
    ∃ trace, TraceAnalysis.ofBytes (Utf8.encode (gpuTrace amount)) true = .ok trace ∧
      trace.usage.resources.keys = ["GPU"] := by
  have hok : ∀ amount ∈ ["1", "2"],
      (TraceAnalysis.ofBytes (Utf8.encode (gpuTrace amount)) true).toOption.any
        (fun trace => trace.usage.resources.keys = ["GPU"]) = true := by decide +kernel
  obtain ⟨trace, htrace, hkeys⟩ := exists_of_any_toOption (hok amount h)
  exact ⟨trace, htrace, of_decide_eq_true hkeys⟩

/-- Wherever a directory has these files, it is that of a run, and the run uses the GPUs and no
other resource. -/
theorem exists_load_gpuRun (proper : s.root.Proper) {amount : String}
    (h : s.list dir = .ok (gpuRun amount)) (hamount : amount ∈ ["1", "2"]) :
    ∃ run, RunAnalysis.load s dir ⟨true, .standard⟩ = .ok run ∧
      run.trace.usage.resources.keys = ["GPU"] := by
  have hdiscover : RunFiles.discover s dir =
      .ok ⟨dir, Path.join dir "r.conf", Path.join dir "r.log", Path.join dir "r.csv"⟩ := by
    rw [RunFiles.discover, h]
    exact RunFiles.ofEntries_gpuRun dir amount
  have hconf : s.read (Path.join dir "r.conf") = .ok (Utf8.encode gpuSettings) :=
    Storage.read_of_mem_list proper h (by simp [gpuRun])
  have hcsv : s.read (Path.join dir "r.csv") = .ok (Utf8.encode (gpuTrace amount)) :=
    Storage.read_of_mem_list proper h (by simp [gpuRun])
  have hlog : s.read (Path.join dir "r.log") = .ok [] :=
    Storage.read_of_mem_list proper h (by simp [gpuRun])
  obtain ⟨settings, hsettings⟩ := exists_gpuSettings
  obtain ⟨trace, htrace, hkeys⟩ := exists_gpuTrace hamount
  have hsettings' : RunAnalysis.loadSettings s (Path.join dir "r.conf") = .ok settings := by
    rw [RunAnalysis.loadSettings_of_read hconf, hsettings]
    rfl
  have htrace' : RunAnalysis.loadTrace s (Path.join dir "r.csv") true = .ok trace := by
    rw [RunAnalysis.loadTrace_of_read hcsv, htrace]
    rfl
  have hrun : RunAnalysis.IsOf s dir ⟨true, .standard⟩
      ⟨runName dir, _, settings, .ofList settings.arrivalRates, trace, _⟩ :=
    ⟨rfl, hdiscover, hsettings', rfl, htrace', RunAnalysis.loadLog_of_read hlog _⟩
  exact ⟨_, RunAnalysis.load_eq_ok_iff.mpr hrun, hkeys⟩

end ClusterTrace
