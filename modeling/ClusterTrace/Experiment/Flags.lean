import ClusterTrace.Keyed
import ClusterTrace.Text.Blank
import ClusterTrace.Text.Split

/-!
# Flags

The configuration of a run holds one flag a line, `key=value` or a bare key, with blank lines and
blanks around a line left out. The value starts behind the first `=`. A flag may be given several
times and keeps all its values in order.
-/

namespace ClusterTrace

/-- What a line says about its flag. -/
inductive FlagValue where
  /-- The flag stands alone. -/
  | bare
  /-- The text behind the first `=`. -/
  | value (text : String)
deriving DecidableEq

/-- The text of a value, if the flag does not stand alone. -/
def FlagValue.text? : FlagValue → Option String
  | bare => none
  | value text => some text

/-- Flags in the order in which they first appear, each with its values in order. -/
structure Flags where
  table : Keyed String (List FlagValue)
deriving DecidableEq

namespace Flags

def none : Flags := ⟨.empty⟩

/-- The values of a flag, of which there are none if it does not appear. -/
def get (f : Flags) (key : String) : List FlagValue := (f.table.get? key).getD []

/-- The flag appears. -/
def contains (f : Flags) (key : String) : Bool := f.table.contains key

def add (f : Flags) (key : String) (v : FlagValue) : Flags :=
  ⟨f.table.insert key (f.get key ++ [v])⟩

/-- The flag on a line, which is neither blank nor has blanks around it. -/
def readLine (line : List Char) : String × FlagValue :=
  match Text.splitFirst? '=' line with
  | some (key, text) => (String.ofList key, .value (String.ofList text))
  | Option.none => (String.ofList line, .bare)

/-- The lines of a text that hold a flag, without the blanks around them. -/
def flagLines (text : String) : List (List Char) :=
  ((Text.lines text.toList).map Text.trim).filter fun line => line ≠ []

def parse (text : String) : Flags :=
  (flagLines text).foldl (fun f line => f.add (readLine line).1 (readLine line).2) none

end Flags

end ClusterTrace
