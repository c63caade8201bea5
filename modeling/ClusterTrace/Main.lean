import ClusterTrace.Tool.Program

/-!
# The command

Looks at the files that the arguments name, runs the program on what is there, and does what it
says.
-/

namespace ClusterTrace.Main

/-- What is at a path, if anything is, without the entries of a directory. -/
def look? (path : String) : IO (Option Node) := do
  let place := (← IO.currentDir) / path
  try
    if ← place.isDir then return some (.directory [])
    else return some (.file (← IO.FS.readBinFile place).toList)
  catch _ => return none

/-- The storage with what is at a path, if it is not known yet. -/
def note (s : Storage) (path : String) : IO Storage := do
  match s.lookup path with
  | .ok _ => return s
  | .error _ => return ((← look? path).map (s.place path)).getD s

/-- The names of the entries of the directory at a path, of which there are none elsewhere. -/
def entryNames (path : String) : IO (List String) := do
  try
    return (← ((← IO.currentDir) / path).readDir).toList.map fun entry => entry.fileName
  catch _ => return []

/-- The storage with what is below a path down to a depth. -/
def exploreBelow : Nat → Storage → String → IO Storage
  | 0, s, _ => return s
  | depth + 1, s, path => do
    (← entryNames path).foldlM (fun s name => do
      exploreBelow depth (← note s (Path.join path name)) (Path.join path name)) s

/-- The paths of the places on the way to a path, and the path itself. -/
def stages (path : String) : List String :=
  let parts := Path.parts path
  ((List.range parts.length).map fun n => "/".intercalate (parts.take (n + 1))).filter (· ≠ "")

/-- The storage with what is on the way to a path, at it and below it down to a depth. -/
def explore (depth : Nat) (s : Storage) (path : String) : IO Storage := do
  if (Storage.pathFault? path).isSome then return s
  else exploreBelow depth (← (stages path).foldlM note s) path

/-- The storage with what is at some paths. -/
def exploreAll (depth : Nat) (s : Storage) (paths : List String) : IO Storage :=
  paths.foldlM (explore depth) s

/-- The directory in which the command runs, and nothing else. -/
def emptyStorage : IO Storage := do
  let here := (Path.parts (← IO.currentDir).toString).filter fun part => !Path.isVoid part
  return ⟨Node.place (.directory []) here (.directory []), here⟩

/-- The files that arguments name. -/
def survey (a : Arguments) : IO Storage := do
  let described ← exploreAll 0 (← emptyStorage) a.config.toList
  let runs := match Program.describe described a with
    | .ok b => b.runs
    | .error _ => []
  exploreAll 0 (← exploreAll 2 described runs) (a.output.toList ++ a.table.toList)

def processors : IO Nat := do
  try
    let lines ← IO.FS.lines "/proc/cpuinfo"
    return max 1 (lines.filter fun line => line.startsWith "processor").size
  catch _ => return 1

/-- Does what a run of the program says. -/
def perform (r : ProgramResult) : IO UInt32 := do
  (← IO.getStderr).putStr r.errors
  (← IO.getStdout).putStr r.output
  for (path, text) in r.writes do
    IO.FS.writeFile path text
  return UInt32.ofNat r.code

end ClusterTrace.Main

def main (words : List String) : IO UInt32 := do
  let storage ← match ClusterTrace.Arguments.parse? words with
    | some a => ClusterTrace.Main.survey a
    | none => ClusterTrace.Main.emptyStorage
  ClusterTrace.Main.perform
    (ClusterTrace.Program.execute storage (← ClusterTrace.Main.processors) words)
