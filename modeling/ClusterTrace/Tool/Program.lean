import ClusterTrace.Batch.Description
import ClusterTrace.Report.BatchReport
import ClusterTrace.Tool.Arguments
import ClusterTrace.Tool.Table

/-!
# The program

What the command does, as a function of its arguments and of the files there are: what it shows,
what it reports, which files it writes and how it ends. An error ends it; what was written before
stays.
-/

namespace ClusterTrace

/-- What a run of the program does. -/
structure ProgramResult where
  code : Nat
  /-- The text on the standard output. -/
  output : String
  /-- The text on the standard error. -/
  errors : String
  /-- The files that are written, in order. -/
  writes : List (String × String)
deriving DecidableEq

namespace Program

/-! ## The wording of errors that end the program -/

/-- The details of a fault with a number of the operating system. -/
def osDetails (code : Nat) (kind message : String) : String :=
  "Os \x7b code: " ++ decimalText code ++ ", kind: " ++ kind ++ ", message: " ++
    Text.quoted message ++ " \x7d"

/-- The details of a fault without a number. -/
def plainDetails (kind message : String) : String :=
  "Error \x7b kind: " ++ kind ++ ", message: " ++ Text.quoted message ++ " \x7d"

def fileFaultDetails : FileFault → String
  | .notFound => osDetails 2 "NotFound" "No such file or directory"
  | .notDirectory => osDetails 20 "NotADirectory" "Not a directory"
  | .isDirectory => osDetails 21 "IsADirectory" "Is a directory"
  | .nameTooLong => osDetails 36 "InvalidFilename" "File name too long"
  | .nulInPath => plainDetails "InvalidInput" FileFault.nulInPath.message
  | .notText => plainDetails "InvalidData" FileFault.notText.message

def pathDetails (path : String) (fault : FileFault) : String :=
  "Io \x7b path: " ++ Text.quoted path ++ ", source: " ++ fileFaultDetails fault ++ " \x7d"

/-- The details of a fault that ends the program. -/
def faultDetails : RunFault → String
  | .unreadable path fault => pathDetails path fault
  | .badBatchFile path => "BatchConfig \x7b path: " ++ Text.quoted path ++ " \x7d"
  | fault => Text.quoted fault.message

/-! ## The journal -/

def recordLine (r : LogRecord) : String := s!"[{r.level.name}] {r.text}\n"

/-- The lines of the records that are shown. -/
def journalText (journal : List LogRecord) : String :=
  String.join ((recordsFrom .info journal).map recordLine)

/-! ## The work -/

/-- The description of the batch that the arguments ask for. -/
def describe (s : Storage) (a : Arguments) : Except RunFault BatchDescription :=
  match a.config with
  | none => .ok { BatchDescription.empty with runs := a.runs }
  | some path =>
    (BatchDescription.load s path).map fun b => { b with runs := b.runs ++ a.runs }

/-- The workers that the arguments and the description ask for, of which there are as many as
processors if they say nothing. -/
def runnerFor (processors : Nat) (a : Arguments) (b : BatchDescription) : Runner :=
  .ofThreads ((a.threads.or b.threads).getD processors)
    ((a.timeout.map Duration.ofSeconds).or b.timeout)

/-- The files there are when some have been written. -/
def storageAfter (s : Storage) (writes : List (String × String)) : Storage :=
  writes.foldl (fun s w => s.write w.1 (Utf8.encode w.2)) s

/-- Writes a file, unless an error has ended the program before or does so here. -/
def save (s : Storage) (r : ProgramResult) (target : Option String) (text note : String) :
    ProgramResult :=
  match target with
  | none => r
  | some path =>
    if r.code ≠ 0 then r
    else
      match (storageAfter s r.writes).createFault? path with
      | some fault =>
        { r with code := 1, errors := r.errors ++ s!"Error: {pathDetails path fault}\n" }
      | none =>
        { r with
          errors := r.errors ++ journalText [⟨.info, s!"wrote {note} to {path}"⟩]
          writes := r.writes ++ [(path, text)] }

/-- Analyses a batch and shows it, and writes what the arguments ask for. -/
def analyzeBatch (s : Storage) (a : Arguments) (runner : Runner) (paths : List String) :
    ProgramResult :=
  let options : RunOptions := ⟨!a.lenient, .standard⟩
  let dirs := Sweep.expandAll s paths
  let outcomes := Batch.analyze s dirs options runner
  let report := BatchReport.ofOutcomes outcomes
  let failures := report.failures.map fun f => ⟨.error, s!"{f.dir}: {f.error}"⟩
  let journal := Batch.startJournal dirs runner ++ Batch.workerJournal s dirs options outcomes ++
    BatchReport.journal outcomes ++ failures
  let shown : ProgramResult :=
    { code := 0, output := Table.text report.runs, errors := journalText journal, writes := [] }
  let documented := save s shown a.output report.jsonText "report"
  save s documented a.table report.tableText "utilization table"

def failWith (details : String) : ProgramResult := ⟨1, "", s!"Error: {details}\n", []⟩

def execute (s : Storage) (processors : Nat) (words : List String) : ProgramResult :=
  match Arguments.parse? words with
  | none => ⟨2, "", "error: bad usage\n", []⟩
  | some a =>
    match describe s a with
    | .error fault => failWith (faultDetails fault)
    | .ok b =>
      if b.runs = [] then failWith (Text.quoted "no runs given")
      else analyzeBatch s a (runnerFor processors a b) b.runs

end Program

end ClusterTrace
