import ClusterTrace.Experiment.Flags
import ClusterTrace.Number.Decimal
import ClusterTrace.Number.Scalar
import ClusterTrace.Text.Quoted

/-!
# Settings of a run

The flags that the analysis understands, as typed values. Of each flag the first line counts. The
arrival rates are required; the flags are checked in the order of `Settings.schema`.
-/

namespace ClusterTrace

/-- What is wrong with the flags of a run. -/
inductive SettingsFault where
  /-- A required flag does not appear. -/
  | missing (key : String)
  /-- A flag has no value or one that cannot be read. -/
  | malformed (key value : String)
deriving DecidableEq

def SettingsFault.message : SettingsFault → String
  | .missing key => s!"required flag {key} is missing"
  | .malformed key value => s!"flag {key} has malformed value {Text.quoted value}"

/-- A flag that the analysis understands. -/
structure FlagSpec where
  /-- The name of the flag. -/
  key : String
  /-- Every run has to give it. -/
  required : Bool
deriving DecidableEq

/-- The typed settings of a run, beside all its flags. -/
structure Settings where
  /-- The arrival rate of each class of task graphs. -/
  arrivalRates : List Double
  /-- The number of task graphs of each class. -/
  invocations : Option (List Nat)
  scheduler : Option String
  randomSeed : Option Nat
  flags : Flags
deriving DecidableEq

namespace Settings

def arrivalRatesKey : String := "--override_poisson_arrival_rates"

/-- The flag of the numbers of task graphs. -/
def invocationsKey : String := "--override_num_invocations"

def schedulerKey : String := "--scheduler"

def randomSeedKey : String := "--random_seed"

/-- The flags that the analysis understands, in the order in which they are checked. -/
def schema : List FlagSpec :=
  [⟨arrivalRatesKey, true⟩, ⟨invocationsKey, false⟩, ⟨schedulerKey, false⟩, ⟨randomSeedKey, false⟩]

/-- The value on the first line of a flag. -/
def firstValue (flags : Flags) (key : String) : Except SettingsFault (Option String) :=
  match flags.get key with
  | [] => .ok none
  | .bare :: _ => .error (.malformed key "")
  | .value text :: _ => .ok (some text)

/-- A text without the white space at its ends. -/
def trimmed (s : List Char) : String := String.ofList (Text.trim s)

/-- Reads values between commas, with white space around them left out. -/
def readList? {α : Type} (read : String → Option α) (text : String) : Option (List α) :=
  (Text.pieces ',' text.toList).mapM fun piece => read (trimmed piece)

/-- Reads the value of a flag that may be absent. -/
def readFlag {α : Type} (flags : Flags) (key : String) (read : String → Option α) :
    Except SettingsFault (Option α) :=
  (firstValue flags key).bind fun value =>
    match value with
    | none => .ok none
    | some text =>
      match read text with
      | some x => .ok (some x)
      | none => .error (.malformed key text)

/-- A value that must be there. -/
def require {α : Type} (key : String) : Option α → Except SettingsFault α
  | some x => .ok x
  | none => .error (.missing key)

/-- Reads the settings from the flags of a run. -/
def ofFlags (flags : Flags) : Except SettingsFault Settings := do
  let arrivalRates ←
    (readFlag flags arrivalRatesKey (readList? Double.read?)).bind (require arrivalRatesKey)
  let invocations ← readFlag flags invocationsKey (readList? readNatural?)
  let scheduler ← readFlag flags schedulerKey some
  let randomSeed ← readFlag flags randomSeedKey fun text => readNatural? (trimmed text.toList)
  return { arrivalRates, invocations, scheduler, randomSeed, flags }

/-- Reads the settings of a run. -/
def parse (text : String) : Except SettingsFault Settings := ofFlags (Flags.parse text)

end Settings

/-- The arrival rates of a run and their sum. -/
structure ArrivalRates where
  /-- The rate of each class. -/
  rates : List Double
  /-- The rate of all classes together. -/
  total : Double
deriving DecidableEq

def ArrivalRates.ofList (rates : List Double) : ArrivalRates := ⟨rates, Scalar.sum rates⟩

end ClusterTrace
