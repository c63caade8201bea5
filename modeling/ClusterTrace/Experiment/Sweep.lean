import ClusterTrace.Experiment.RunFiles

/-!
# Sweeps

A sweep is a directory of runs. Where paths to runs are asked for, a directory without a trace
stands for its subdirectories, in order. All other paths stand for themselves, also those that turn
out to be no run, so that nothing asked for is passed over. The names of subdirectories are text, as
all names are here, and what is decoded from them for a label is the name itself.
-/

namespace ClusterTrace.Sweep

/-- The entry is a trace: a file with the extension of one. -/
def isTrace (entry : String × Node) : Bool :=
  entry.2.isFile && Path.extension? entry.1 = some "csv"

/-- The names of the directories among some entries in order. -/
def directoryNames (entries : List (String × Node)) : List String :=
  sortNames ((entries.filter fun e => !e.2.isFile).map Prod.fst)

/-- The runs that a path stands for. -/
def expand (s : Storage) (path : String) : List String :=
  match s.list path with
  | .error _ => [path]
  | .ok entries =>
    if entries.any isTrace || (directoryNames entries).isEmpty then [path]
    else (directoryNames entries).map (Path.join path)

/-- The runs that some paths stand for. -/
def expandAll (s : Storage) (paths : List String) : List String := paths.flatMap (expand s)

end ClusterTrace.Sweep
