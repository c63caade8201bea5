import ClusterTrace.Text.Hidden

/-!
# Quoted text

How a value from the input is shown in a message: between double quotes, with short escapes for the
characters that have one and the number of a character in braces for the others that would not be
seen.
-/

namespace ClusterTrace.Text

/-- The characters with a letter of their own behind the backslash. -/
def escapeLetter? : Char → Option Char
  | '"' => some '"'
  | '\\' => some '\\'
  | '\n' => some 'n'
  | '\r' => some 'r'
  | '\t' => some 't'
  | '\x00' => some '0'
  | _ => none

/-- The number of a character between braces, in lower-case hexadecimal. -/
def escapeNumber (c : Char) : List Char :=
  '\\' :: 'u' :: '\x7b' :: Nat.toDigits 16 c.toNat ++ ['\x7d']

/-- One character of a quoted text. -/
def escapeChar (c : Char) : List Char :=
  match escapeLetter? c with
  | some letter => ['\\', letter]
  | none => if isHidden c then escapeNumber c else [c]

/-- A text between double quotes. -/
def quoted (s : String) : String :=
  String.ofList ('"' :: s.toList.flatMap escapeChar ++ ['"'])

end ClusterTrace.Text
