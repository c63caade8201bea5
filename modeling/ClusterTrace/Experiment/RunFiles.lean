import ClusterTrace.Experiment.RunFault

/-!
# The files of a run

A run is a directory with a configuration, a log and a trace. Each is found by the end of its name;
of several files the first by name is taken. Files that the solver library leaves in the directory
have names of their own and are passed over. All names are text, so what is compared is the name
itself, and the path of a file that was found leads to that file.
-/

namespace ClusterTrace

/-- How a file of a run is found. -/
structure FilePattern where
  /-- What is looked for, in words. -/
  what : String
  /-- What the name ends in. -/
  ending : String
  /-- What the name must not start with, if anything. -/
  excluded : Option String
deriving DecidableEq

namespace FilePattern

def config : FilePattern := ⟨"config (*.conf)", ".conf", none⟩

def log : FilePattern := ⟨"log (*.log)", ".log", some "tetrisched_"⟩

def trace : FilePattern := ⟨"trace (*.csv)", ".csv", some "libtetrisched_"⟩

/-- The name is that of a file looked for. -/
def fits (p : FilePattern) (name : String) : Bool :=
  Path.endsWith name p.ending &&
    match p.excluded with
    | none => true
    | some start => !Path.startsWith name start

end FilePattern

/-- The files of a run, as paths. -/
structure RunFiles where
  /-- The directory of the run. -/
  dir : String
  config : String
  log : String
  trace : String
deriving DecidableEq

/-- The label of a run in reports: the name of its directory, or the whole path if that ends in
none. -/
def runName (dir : String) : String := (Path.fileName? dir).getD dir

/-- Names in the order of their characters. -/
def sortNames (names : List String) : List String := names.mergeSort fun a b => decide (a ≤ b)

namespace RunFiles

/-- The names of the files of a directory in order. -/
def fileNames (entries : List (String × Node)) : List String :=
  sortNames ((entries.filter fun e => e.2.isFile).map Prod.fst)

/-- The first file by name that fits a pattern. -/
def find (dir : String) (names : List String) (p : FilePattern) : Except RunFault String :=
  match names.find? p.fits with
  | some name => .ok (Path.join dir name)
  | none => .error (.missingFile dir p.what)

/-- Finds the files of a run among the entries of its directory. -/
def ofEntries (dir : String) (entries : List (String × Node)) : Except RunFault RunFiles := do
  let names := fileNames entries
  let config ← find dir names .config
  let log ← find dir names .log
  let trace ← find dir names .trace
  return { dir, config, log, trace }

def discover (s : Storage) (dir : String) : Except RunFault RunFiles :=
  match s.list dir with
  | .error fault => .error (.unreadable dir fault)
  | .ok entries => ofEntries dir entries

end RunFiles

end ClusterTrace
