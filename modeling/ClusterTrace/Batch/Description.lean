import ClusterTrace.Batch.Jobs
import ClusterTrace.Yaml.Node

/-!
# Descriptions of batches

A batch may be described by a document with the paths of its runs and, if wanted, the number of
workers and the limit of a job in seconds. Other keys mean nothing. The same three values may stand
in a sequence.
-/

namespace ClusterTrace

structure BatchDescription where
  /-- Paths to runs or to directories of runs. -/
  runs : List String
  /-- The number of workers. -/
  threads : Option Nat
  /-- The limit of a job in seconds. -/
  timeoutSeconds : Option Nat
deriving DecidableEq

namespace BatchDescription

/-- No runs, and nothing else said. -/
def empty : BatchDescription := ⟨[], none, none⟩

/-- The limit of a job. -/
def timeout (b : BatchDescription) : Option Duration := b.timeoutSeconds.map Duration.ofSeconds

/-! ## The values of a description -/

/-- Reads a path, which any scalar is. -/
def readPath? : Yaml → Option String
  | .scalar _ _ text => some text
  | _ => none

def readPaths? : Yaml → Option (List String)
  | .sequence items => items.mapM readPath?
  | _ => none

/-- Reads a number that is not negative. -/
def readUnsigned? (text : String) : Option Nat :=
  (readInteger? text).bind fun n => if n < 0 then none else some n.toNat

/-- The base that a letter behind a zero stands for. -/
def base? : Char → Option Nat
  | 'x' => some 16
  | 'o' => some 8
  | 'b' => some 2
  | _ => none

/-- Reads a number in a base, before which a plus may stand. -/
def readDigits? (base : Nat) : List Char → Option Nat
  | '+' :: digits => Yaml.readInBase? base digits
  | digits => Yaml.readInBase? base digits

/-- Reads a number behind a zero and the letter of its base. Behind a minus only zero is meant. -/
def readMarked? (negative : Bool) (base : Nat) (digits : List Char) : Option Nat :=
  if negative then (Yaml.readInBase? base digits).filter (· = 0)
  else (readDigits? base digits).bind fitting

/-- Reads a number of 64 bits in decimal, without zeros in front, or in another base behind its
mark. The only number with a minus is zero. -/
def readNumber? (text : String) : Option Nat :=
  let (negative, digits) := splitSign text.toList
  match digits with
  | '0' :: c :: rest => (base? c).bind fun base => readMarked? negative base rest
  | _ => (numeral? digits).bind fun n => if negative && n ≠ 0 then none else fitting n

/-- Reads a number: a plain scalar, or any scalar with the tag of integers. -/
def readTagged? : Yaml → Option Nat
  | .scalar none true text => readNumber? text
  | .scalar (some ⟨"!!", "int"⟩) _ text => readUnsigned? text
  | _ => none

/-- A text that says that there is nothing. -/
def isNull (text : String) : Bool := text = "~" || text = "null"

/-- Says that there is no number: plainly and without another tag. -/
def saysNothing : Yaml → Bool
  | .scalar none true text => isNull text
  | .scalar (some ⟨"!!", "null"⟩) true text => isNull text
  | _ => false

/-- Reads a number that may be absent. -/
def readOptional? (value : Yaml) : Option (Option Nat) :=
  if saysNothing value then some none else (readTagged? value).map some

/-! ## Whole descriptions -/

/-- The keys of a mapping, if they are scalars. -/
def readKeys? (pairs : List (Yaml × Yaml)) : Option (List (String × Yaml)) :=
  pairs.mapM fun (key, value) => (readPath? key).map fun name => (name, value)

/-- The value of a key that may be absent but not repeated. -/
def single? (pairs : List (String × Yaml)) (key : String) : Option (Option Yaml) :=
  match pairs.filter fun p => p.1 = key with
  | [] => some none
  | [p] => some (some p.2)
  | _ => none

/-- Reads the description in a mapping. -/
def ofPairs? (pairs : List (Yaml × Yaml)) : Option BatchDescription := do
  let pairs ← readKeys? pairs
  let runs ← (← single? pairs "runs").bind readPaths?
  let threads ← readOptional? ((← single? pairs "threads").getD .nothing)
  let timeoutSeconds ← readOptional? ((← single? pairs "timeout_secs").getD .nothing)
  return { runs, threads, timeoutSeconds }

def ofDocument? : Yaml → Option BatchDescription
  | .mapping pairs => ofPairs? pairs
  | .sequence [runs] => (readPaths? runs).map fun runs => ⟨runs, none, none⟩
  | .sequence [runs, threads] => do
    return ⟨← readPaths? runs, ← readOptional? threads, none⟩
  | .sequence [runs, threads, timeout] => do
    return ⟨← readPaths? runs, ← readOptional? threads, ← readOptional? timeout⟩
  | _ => none

def parse? (bytes : Bytes) : Option BatchDescription :=
  match Utf8.decode? bytes with
  | .ok text => (Yaml.read? text).bind ofDocument?
  | .error _ => none

/-- Loads a description. A directory can be opened like a file but holds no document. -/
def load (s : Storage) (path : String) : Except RunFault BatchDescription :=
  match s.read path with
  | .error .isDirectory => .error (.badBatchFile path)
  | .error fault => .error (.unreadable path fault)
  | .ok content =>
    match parse? content with
    | some b => .ok b
    | none => .error (.badBatchFile path)

end BatchDescription

end ClusterTrace
