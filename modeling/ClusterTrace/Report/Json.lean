import ClusterTrace.Number.Digits

/-!
# JSON documents

Documents as they are written into reports: two blanks of indentation, a blank behind each colon,
the keys of an object in their order, and nothing but its brackets for an empty collection. Doubles
have the fewest digits that read back; those that are no finite number are `null`.
-/

namespace ClusterTrace

/-- A document. -/
inductive Json where
  | null
  /-- A truth value. -/
  | bool (b : Bool)
  | natural (n : Nat)
  | number (x : Double)
  | text (s : String)
  | array (items : List Json)
  /-- Named documents in order. -/
  | object (fields : List (String × Json))

namespace Json

/-- The document of a value that may be absent. -/
def ofOption {α : Type} (f : α → Json) : Option α → Json
  | some x => f x
  | none => null

/-- Numbers in documents have a point or an exponent. They are positional from `0.00001` on and
below `10 ^ 16`. -/
def numberStyle : NumberStyle where
  positional e := -5 ≤ e ∧ e < 16
  wholeMark := ".0"
  plusMark := "+"
  halfUp := false

def numberText (x : Double) : String := if x.isFinite then numberStyle.text x else "null"

/-- Four hexadecimal digits. -/
def fourDigits (n : Nat) : List Char :=
  let digits := Nat.toDigits 16 n
  List.replicate (4 - digits.length) '0' ++ digits

/-- One character between the quotes of a text. -/
def escapeChar (c : Char) : List Char :=
  match c with
  | '"' => ['\\', '"']
  | '\\' => ['\\', '\\']
  | '\x08' => ['\\', 'b']
  | '\x0c' => ['\\', 'f']
  | '\n' => ['\\', 'n']
  | '\r' => ['\\', 'r']
  | '\t' => ['\\', 't']
  | c => if c.toNat < 0x20 then '\\' :: 'u' :: fourDigits c.toNat else [c]

/-- A text between quotes. -/
def quoted (s : String) : String := String.ofList ('"' :: s.toList.flatMap escapeChar ++ ['"'])

/-- The start of a line at a depth. -/
def newLine (depth : Nat) : String := String.ofList ('\n' :: List.replicate (2 * depth) ' ')

/-- Lines at a depth between brackets. -/
def bracketed (opening closing : String) (depth : Nat) (lines : List String) : String :=
  if lines = [] then opening ++ closing
  else
    let start := newLine (depth + 1)
    opening ++ start ++ ("," ++ start).intercalate lines ++ newLine depth ++ closing

mutual

/-- The text of a document at a depth. -/
def render (depth : Nat) : Json → String
  | null => "null"
  | bool b => if b then "true" else "false"
  | natural n => decimalText n
  | number x => numberText x
  | text s => quoted s
  | array items => bracketed "[" "]" depth (renderItems (depth + 1) items)
  | object fields => bracketed "\x7b" "\x7d" depth (renderFields (depth + 1) fields)

def renderItems (depth : Nat) : List Json → List String
  | [] => []
  | item :: rest => render depth item :: renderItems depth rest

/-- The texts of the fields of an object. -/
def renderFields (depth : Nat) : List (String × Json) → List String
  | [] => []
  | (key, value) :: rest => (quoted key ++ ": " ++ render depth value) :: renderFields depth rest

end

/-- The text of a document. -/
def pretty (j : Json) : String := render 0 j

end Json

end ClusterTrace
