import ClusterTrace.Number.Decimal

/-!
# Places in a YAML text

A reader of YAML looks a few characters ahead and minds the columns of what it reads. A `Cursor` is
a place in a text: what follows it, and how many characters, lines and columns lie before it. Only a
line feed begins a new line and a new count of columns; a carriage return ends a line of a scalar,
but the columns go on.
-/

namespace ClusterTrace.Yaml

/-! ## Kinds of characters -/

/-- The character is a space or a tab. -/
def isBlank (c : Char) : Bool := c = ' ' || c = '\t'

/-- The character ends a line. -/
def isBreak (c : Char) : Bool := c = '\n' || c = '\r'

/-- The character separates words. -/
def isWhite (c : Char) : Bool := isBlank c || isBreak c

/-- White space or the end of the text follows. -/
def whiteFollows : List Char → Bool
  | [] => true
  | c :: _ => isWhite c

/-- The character separates the parts of a flow collection. -/
def isFlowMark (c : Char) : Bool := c = ',' || c = '[' || c = ']' || c = '\x7b' || c = '\x7d'

/-- The character may stand in a name. -/
def isWord (c : Char) : Bool := c.isAlphanum || c = '_' || c = '-'

/-! ## Cursors -/

/-- A place in a text. -/
structure Cursor where
  /-- What follows. -/
  rest : List Char
  /-- The number of characters before it. -/
  offset : Nat
  /-- The number of line feeds before it. -/
  line : Nat
  /-- The number of characters since the last line feed. -/
  column : Nat
deriving DecidableEq

namespace Cursor

def start (s : List Char) : Cursor := ⟨s, 0, 0, 0⟩

/-- The place behind the next character. -/
def next (c : Cursor) : Cursor :=
  match c.rest with
  | [] => c
  | '\n' :: rest => ⟨rest, c.offset + 1, c.line + 1, 0⟩
  | _ :: rest => ⟨rest, c.offset + 1, c.line, c.column + 1⟩

/-- The place behind so many characters. -/
def advance (c : Cursor) : Nat → Cursor
  | 0 => c
  | n + 1 => c.next.advance n

/-- The characters of a kind that follow, and the place behind them. -/
def takeWhile (c : Cursor) (kind : Char → Bool) : List Char × Cursor :=
  let run := c.rest.takeWhile kind
  (run, c.advance run.length)

/-- The place behind the characters of a kind that follow. -/
def skipWhile (c : Cursor) (kind : Char → Bool) : Cursor := (c.takeWhile kind).2

/-- The place behind the end of a line, for which a carriage return and a line feed count as one. -/
def skipBreak (c : Cursor) : Cursor :=
  match c.rest with
  | '\r' :: '\n' :: _ => c.advance 2
  | d :: _ => if isBreak d then c.next else c
  | [] => c

/-- The place behind the comment that starts here, if one does. -/
def skipComment (c : Cursor) : Cursor :=
  if c.rest.head? = some '#' then c.skipWhile fun d => !isBreak d else c

/-- The place behind what is left of a line, which is blank but for a comment. -/
def skipLine? (c : Cursor) : Option Cursor :=
  let c := (c.skipWhile isBlank).skipComment
  match c.rest with
  | [] => some c
  | d :: _ => if isBreak d then some c.skipBreak else none

/-- Three of a character stand at the start of a line and are a word. -/
def atTriple (c : Cursor) (mark : Char) : Bool :=
  match c.rest with
  | x :: y :: z :: rest =>
    c.column = 0 && x = mark && y = mark && z = mark && whiteFollows rest
  | _ => false

/-- A mark between documents stands here. -/
def atDocumentMark (c : Cursor) : Bool := c.atTriple '-' || c.atTriple '.'

end Cursor

end ClusterTrace.Yaml
