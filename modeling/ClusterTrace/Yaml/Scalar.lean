import ClusterTrace.Yaml.Cursor

/-!
# YAML scalars

A scalar is a text that is written plainly, between quotes of either kind, or as a block of lines.

* The white space between two words of a plain or quoted scalar is a `Gap`: as it stands when the
  words are on one line, a space when the second one begins the next line, and else a line feed for
  every empty line between them.
* A plain scalar ends before a comment, before a colon with white space behind it, and in a block
  collection before a line that is not indented further than the collection.
* A block is a run of lines at one indentation. In a literal block they are kept; in a folded one
  two lines of words are joined by a space.
-/

namespace ClusterTrace.Yaml

/-! ## Gaps -/

/-- White space between two words. -/
structure Gap where
  /-- The blanks before the first end of a line. -/
  blanks : List Char
  /-- The number of ends of lines. -/
  breaks : Nat
deriving DecidableEq

namespace Gap

/-- What a gap stands for. -/
def text (g : Gap) : List Char :=
  match g.breaks with
  | 0 => g.blanks
  | 1 => [' ']
  | n + 2 => List.replicate (n + 1) '\n'

/-- What a gap stands for behind an end of a line that does not count. -/
def lines (g : Gap) : List Char := List.replicate g.breaks '\n'

def addBlank (g : Gap) (c : Char) : Gap :=
  if g.breaks = 0 then { g with blanks := g.blanks ++ [c] } else g

/-- Goes on with a gap for at most so many characters. A tab must not stand before the margin of a
line. -/
def takeFrom (margin : Nat) : Nat → Gap → Cursor → Option (Gap × Cursor)
  | 0, g, c => some (g, c)
  | n + 1, g, c =>
    match c.rest with
    | [] => some (g, c)
    | d :: _ =>
      if isBreak d then takeFrom margin n { g with breaks := g.breaks + 1 } c.skipBreak
      else if isBlank d then
        if 0 < g.breaks && c.column < margin && d = '\t' then none
        else takeFrom margin n (g.addBlank d) c.next
      else some (g, c)

/-- The gap that starts here and the place behind it. -/
def take? (margin : Nat) (c : Cursor) : Option (Gap × Cursor) :=
  takeFrom margin c.rest.length ⟨[], 0⟩ c

end Gap

/-! ## Plain scalars -/

/-- A word of a plain scalar ends before these characters. Inside of a flow collection its marks end
a word too. -/
def endsWord (inFlow : Bool) : List Char → Bool
  | [] => true
  | ':' :: rest => whiteFollows rest || (inFlow && rest.head?.any isFlowMark)
  | c :: _ => isWhite c || (inFlow && isFlowMark c)

/-- The number of characters of the word that starts here. -/
def wordLength (inFlow : Bool) : List Char → Nat
  | [] => 0
  | c :: rest => if endsWord inFlow (c :: rest) then 0 else wordLength inFlow rest + 1

structure PlainScalar where
  text : List Char
  /-- A line has ended since its last word. -/
  broken : Bool
  /-- The place where reading goes on. -/
  after : Cursor

namespace PlainScalar

/-- Goes on with a plain scalar behind a gap, for at most so many words. -/
def takeFrom (inFlow : Bool) (margin : Nat) :
    Nat → List Char → Gap → Cursor → Option PlainScalar
  | 0, _, _, _ => none
  | n + 1, text, gap, c =>
    if c.atDocumentMark || c.rest.head? = some '#' then some ⟨text, 0 < gap.breaks, c⟩
    else
      let length := wordLength inFlow c.rest
      let after := c.advance length
      let (text, gap) : List Char × Gap :=
        if length = 0 then (text, gap) else (text ++ gap.text ++ c.rest.take length, ⟨[], 0⟩)
      if after.rest = [] || !whiteFollows after.rest then some ⟨text, 0 < gap.breaks, after⟩
      else
        (Gap.take? margin after).bind fun (gap, after) =>
          if !inFlow && after.column < margin then some ⟨text, 0 < gap.breaks, after⟩
          else takeFrom inFlow margin n text gap after

/-- The plain scalar that starts here. Its further lines begin at the margin or behind it, unless it
stands in a flow collection. -/
def take? (inFlow : Bool) (margin : Nat) (c : Cursor) : Option PlainScalar :=
  takeFrom inFlow margin (c.rest.length + 1) [] ⟨[], 0⟩ c

end PlainScalar

/-! ## Quoted scalars -/

/-- The character that a letter behind a backslash stands for. -/
def unescape? : Char → Option Char
  | '0' => some '\x00'
  | 'a' => some '\x07'
  | 'b' => some '\x08'
  | 't' | '\t' => some '\t'
  | 'n' => some '\n'
  | 'v' => some '\x0b'
  | 'f' => some '\x0c'
  | 'r' => some '\r'
  | 'e' => some '\x1b'
  | ' ' => some ' '
  | '"' => some '"'
  | '\'' => some '\''
  | '\\' => some '\\'
  | 'N' => some '\u0085'
  | '_' => some '\u00a0'
  | 'L' => some '\u2028'
  | 'P' => some '\u2029'
  | _ => none

/-- The number of hexadecimal digits that a letter behind a backslash asks for. -/
def escapeWidth? : Char → Option Nat
  | 'x' => some 2
  | 'u' => some 4
  | 'U' => some 8
  | _ => none

/-- The value of a hexadecimal digit. -/
def hexValue? (c : Char) : Option Nat :=
  if c.isDigit then some (digitValue c)
  else if 'a' ≤ c ∧ c ≤ 'f' then some (c.toNat - 'a'.toNat + 10)
  else if 'A' ≤ c ∧ c ≤ 'F' then some (c.toNat - 'A'.toNat + 10)
  else none

/-- The number written by digits of a base up to sixteen. -/
def readInBase? (base : Nat) (digits : List Char) : Option Nat :=
  if digits = [] then none
  else digits.foldlM (fun n c =>
    (hexValue? c).bind fun d => if d < base then some (base * n + d) else none) 0

def charOfNumber? (n : Nat) : Option Char :=
  if n.isValidChar then some (Char.ofNat n) else none

/-- The escape that starts at a backslash: what it stands for and its length. -/
def readEscape? : List Char → Option (Char × Nat)
  | _ :: letter :: rest =>
    match unescape? letter, escapeWidth? letter with
    | some d, _ => some (d, 2)
    | none, some width =>
      if rest.length < width then none
      else ((readInBase? 16 (rest.take width)).bind charOfNumber?).map fun d => (d, width + 2)
    | none, none => none
  | _ => none

/-- Behind a gap in a quoted scalar no document may end. -/
def Cursor.inside? (c : Cursor) : Option Cursor := if c.atDocumentMark then none else some c

/-- Goes on with a quoted scalar for at most so many steps: its text and the place behind it. -/
def takeQuoted (double : Bool) : Nat → List Char → Cursor → Option (List Char × Cursor)
  | 0, _, _ => none
  | n + 1, text, c =>
    match c.rest with
    | [] => none
    | d :: rest =>
      if isWhite d then
        (Gap.take? 0 c).bind fun (gap, after) =>
          after.inside?.bind (takeQuoted double n (text ++ gap.text))
      else if double && d = '"' then some (text, c.next)
      else if !double && d = '\'' then
        if rest.head? = some '\'' then takeQuoted double n (text ++ [d]) (c.advance 2)
        else some (text, c.next)
      else if double && d = '\\' then
        if rest.head?.any isBreak then
          (Gap.take? 0 c.next.skipBreak).bind fun (gap, after) =>
            after.inside?.bind (takeQuoted double n (text ++ gap.lines))
        else
          (readEscape? c.rest).bind fun (d, length) =>
            takeQuoted double n (text ++ [d]) (c.advance length)
      else takeQuoted double n (text ++ [d]) c.next

/-- The text between the quotes that start here and the place behind it. -/
def takeQuotes? (double : Bool) (c : Cursor) : Option (List Char × Cursor) :=
  takeQuoted double c.rest.length [] c.next

/-! ## Blocks -/

/-- What happens to the ends of lines at the end of a block. -/
inductive Chomping where
  /-- One is kept. -/
  | clip
  /-- None is kept. -/
  | strip
  /-- All are kept. -/
  | keep
deriving DecidableEq

namespace Block

/-- The sign for the end of a block, if one stands here. -/
def takeChomping (c : Cursor) : Option Chomping × Cursor :=
  match c.rest.head? with
  | some '+' => (some .keep, c.next)
  | some '-' => (some .strip, c.next)
  | _ => (none, c)

/-- The digit for the indentation of a block, which is zero for none and must not be written so. -/
def takeIncrement? (c : Cursor) : Option (Nat × Cursor) :=
  match c.rest.head? with
  | some '0' => none
  | some d => some (if d.isDigit then (digitValue d, c.next) else (0, c))
  | none => some (0, c)

/-- The sign and the digit of a block, in either order. -/
def takeHeader? (c : Cursor) : Option (Chomping × Nat × Cursor) :=
  match takeChomping c with
  | (some chomping, c) => (takeIncrement? c).map fun (increment, c) => (chomping, increment, c)
  | (none, c) =>
    (takeIncrement? c).map fun (increment, c) =>
      let (chomping, c) := takeChomping c
      (chomping.getD .clip, increment, c)

/-- The place behind the spaces of an indentation, which is not known yet if it is zero. -/
def skipIndentation (indent : Nat) (c : Cursor) : Cursor :=
  let spaces := (c.rest.takeWhile (· = ' ')).length
  c.advance (if indent = 0 then spaces else min spaces (indent - c.column))

/-- Empty lines that have been passed over. -/
structure EmptyLines where
  /-- The rightmost column reached in them and at the start of the next line. -/
  widest : Nat
  /-- Their number. -/
  count : Nat
  /-- The place where reading goes on. -/
  after : Cursor

/-- Passes over at most so many empty lines. A tab must not stand in the indentation. -/
def skipEmptyLines? (indent : Nat) : Nat → Nat → Nat → Cursor → Option EmptyLines
  | 0, widest, count, c => some ⟨widest, count, c⟩
  | n + 1, widest, count, c =>
    let c := skipIndentation indent c
    let widest := max widest c.column
    match c.rest with
    | [] => some ⟨widest, count, c⟩
    | d :: _ =>
      if d = '\t' && (indent = 0 || c.column < indent) then none
      else if isBreak d then skipEmptyLines? indent n widest (count + 1) c.skipBreak
      else some ⟨widest, count, c⟩

/-- The empty lines that start here. -/
def emptyLines? (indent : Nat) (c : Cursor) : Option EmptyLines :=
  skipEmptyLines? indent (c.rest.length + 1) 0 0 c

/-- The lines of a block that have been read. -/
structure Lines where
  /-- Their text, without the end of the last one. -/
  text : List Char
  /-- The last line has an end. -/
  ended : Bool
  /-- The last line starts with a blank. -/
  blank : Bool
  /-- The number of empty lines behind them. -/
  empty : Nat
  /-- The place where reading goes on. -/
  after : Cursor

/-- What joins the next line, which starts with a blank or not, to the ones before. -/
def Lines.joint (lines : Lines) (literal blank : Bool) : List Char :=
  let empty := List.replicate lines.empty '\n'
  if !lines.ended then empty
  else if literal || lines.blank || blank then '\n' :: empty
  else if lines.empty = 0 then [' ']
  else empty

/-- Goes on with at most so many lines at an indentation. -/
def takeLines? (literal : Bool) (indent : Nat) : Nat → Lines → Option Lines
  | 0, _ => none
  | n + 1, lines =>
    let c := lines.after
    if c.column ≠ indent || c.rest = [] then some lines
    else
      let blank := c.rest.head?.any isBlank
      let (line, c) := c.takeWhile fun d => !isBreak d
      let text := lines.text ++ lines.joint literal blank ++ line
      if c.rest = [] then some ⟨text, false, blank, 0, c⟩
      else
        (emptyLines? indent c.skipBreak).bind fun empty =>
          takeLines? literal indent n ⟨text, true, blank, empty.count, empty.after⟩

/-- The text of lines, whose end depends on the sign of the block. -/
def Lines.chomped (lines : Lines) (chomping : Chomping) : List Char :=
  lines.text ++ (if lines.ended && chomping ≠ .strip then ['\n'] else []) ++
    if chomping = .keep then List.replicate lines.empty '\n' else []

/-- The text of the block whose mark stands here and the place behind it. Without a digit the first
line with words gives the indentation, which is at least the margin. -/
def take? (literal : Bool) (margin : Nat) (c : Cursor) : Option (List Char × Cursor) := do
  let (chomping, increment, c) ← takeHeader? c.next
  let c ← c.skipLine?
  let given := if increment = 0 then 0 else margin - 1 + increment
  let empty ← emptyLines? given c
  let indent := if given = 0 then max empty.widest (max margin 1) else given
  let lines ← takeLines? literal indent (c.rest.length + 1)
    ⟨[], false, false, empty.count, empty.after⟩
  return (lines.chomped chomping, lines.after)

end Block

end ClusterTrace.Yaml
