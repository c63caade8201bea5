import ClusterTrace.Number.Decimal
import ClusterTrace.Text.Split

/-!
# Arguments

The command line: paths of runs, and options with one value each that may stand behind the name of
the option or be joined to it. `--` ends the options. An option that is given twice, that is unknown
or whose value does not fit is bad usage, and so is an empty path.
-/

namespace ClusterTrace

/-- What the command line asks for. -/
structure Arguments where
  /-- Paths to runs or to directories of runs. -/
  runs : List String := []
  /-- The description of a batch. -/
  config : Option String := none
  /-- Where the report is written as a document. -/
  output : Option String := none
  /-- Where the table of resources is written. -/
  table : Option String := none
  /-- The number of workers. -/
  threads : Option Nat := none
  /-- The limit of a job in seconds. -/
  timeout : Option Nat := none
  /-- A resource that no pool declares is no fault. -/
  lenient : Bool := false
deriving DecidableEq

/-- The options that take a value. -/
inductive OptionName where
  | config
  | output
  | table
  | threads
  | timeout
deriving DecidableEq

namespace Arguments

def longOption? : String → Option OptionName
  | "config" => some .config
  | "output" => some .output
  | "csv" => some .table
  | "threads" => some .threads
  | "timeout" => some .timeout
  | _ => none

def shortOption? : Char → Option OptionName
  | 'c' => some .config
  | 'o' => some .output
  | 't' => some .threads
  | _ => none

/-- Sets something that is not set yet. -/
def setOnce {α : Type} (old : Option α) (value : Option α) : Option (Option α) :=
  match old, value with
  | none, some x => some (some x)
  | _, _ => none

def readPath? (text : String) : Option String := if text = "" then none else some text

def set? (a : Arguments) (name : OptionName) (value : String) : Option Arguments :=
  match name with
  | .config => (setOnce a.config (readPath? value)).map fun config => { a with config }
  | .output => (setOnce a.output (readPath? value)).map fun output => { a with output }
  | .table => (setOnce a.table (readPath? value)).map fun table => { a with table }
  | .threads => (setOnce a.threads (readNatural? value)).map fun threads => { a with threads }
  | .timeout => (setOnce a.timeout (readNatural? value)).map fun timeout => { a with timeout }

def addRun? (a : Arguments) (path : String) : Option Arguments :=
  (readPath? path).map fun path => { a with runs := a.runs ++ [path] }

/-- How far the command line is read. -/
structure Reading where
  /-- What it has asked for. -/
  arguments : Arguments
  /-- An option that waits for its value. -/
  pending : Option OptionName
  /-- The options have ended. -/
  ended : Bool

def Reading.next (r : Reading) (a : Option Arguments) : Option Reading :=
  a.map fun arguments => { r with arguments }

/-- Reads a long option, without its dashes. -/
def Reading.long? (r : Reading) (s : List Char) : Option Reading :=
  match Text.splitFirst? '=' s with
  | some (name, value) =>
    (longOption? (String.ofList name)).bind fun name =>
      r.next (r.arguments.set? name (String.ofList value))
  | none =>
    if s = "no-validate-resources".toList then
      if r.arguments.lenient then none
      else some { r with arguments := { r.arguments with lenient := true } }
    else (longOption? (String.ofList s)).map fun name => { r with pending := some name }

/-- Reads a short option, without its dash. -/
def Reading.short? (r : Reading) (letter : Char) (rest : List Char) : Option Reading :=
  (shortOption? letter).bind fun name =>
    match rest with
    | [] => some { r with pending := some name }
    | '=' :: value => r.next (r.arguments.set? name (String.ofList value))
    | value => r.next (r.arguments.set? name (String.ofList value))

/-- Reads one word of the command line. A word that starts with a dash is no value, unless it is a
dash alone. -/
def Reading.step? (r : Reading) (word : String) : Option Reading :=
  if r.ended then r.next (r.arguments.addRun? word)
  else
    match r.pending, word.toList with
    | some _, '-' :: _ :: _ => none
    | some name, _ => { r with pending := none }.next (r.arguments.set? name word)
    | none, ['-', '-'] => some { r with ended := true }
    | none, '-' :: '-' :: rest => r.long? rest
    | none, '-' :: letter :: rest => r.short? letter rest
    | none, _ => r.next (r.arguments.addRun? word)

/-- Reads a command line, unless it is bad usage. -/
def parse? (words : List String) : Option Arguments :=
  (words.foldlM Reading.step? ⟨{}, none, false⟩).bind fun r =>
    if r.pending = none then some r.arguments else none

end Arguments

end ClusterTrace
