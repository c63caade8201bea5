import ClusterTrace.Yaml.Tag

/-!
# YAML tokens

The marks and scalars of a text in order, with marks of their own for what the indentation says: a
block collection begins where a dash or a key stands further to the right than the collection
around it, and ends before the next token that does not.

That a token is a key shows only at the colon behind it. So the place of the last token that may be
one is kept as a `Candidate`, for every flow collection that is open and for the blocks around them,
and the mark of the key is put in afterwards. A candidate must end on its line and within 1024
characters.
-/

namespace ClusterTrace.Yaml

/-- A part of a text. -/
inductive Token where
  /-- The mark before a document. -/
  | documentStart
  /-- The mark behind a document. -/
  | documentEnd
  | directive
  | blockSequence
  | blockMapping
  /-- A block collection ends. -/
  | blockEnd
  | flowSequence
  | flowSequenceEnd
  | flowMapping
  | flowMappingEnd
  /-- The dash before an item. -/
  | item
  /-- The comma between the parts of a flow collection. -/
  | comma
  | key
  /-- The colon before a value. -/
  | value
  /-- A name in the place of the node that has it. -/
  | reference (name : String)
  /-- A name for the node that follows. -/
  | anchor (name : String)
  /-- The kind of the node that follows. -/
  | tag (tag : Tag)
  /-- A scalar, with whether it is written plainly. -/
  | scalar (plain : Bool) (text : String)
deriving DecidableEq

/-- A token that may turn out to be a key. -/
structure Candidate where
  /-- The number of tokens before it. -/
  index : Nat
  place : Cursor
  /-- It must be a key. -/
  required : Bool
deriving DecidableEq

/-- A text that has been read up to a place. -/
structure Scan where
  cursor : Cursor
  tokens : List Token
  /-- The candidate in the innermost flow collection, or in the blocks if none is open. -/
  candidate : Option Candidate
  /-- The candidates around it, from the inside. -/
  outer : List (Option Candidate)
  /-- The columns of the block collections that are open, from the inside. -/
  levels : List Nat
  /-- A token that starts here may be a key. -/
  keyAllowed : Bool
  /-- The number of characters before a place where a colon needs no white space behind it. -/
  adjacent : Option Nat

namespace Scan

def start (s : List Char) : Scan := ⟨.start s, [], none, [], [], true, none⟩

/-- A flow collection is open. -/
def inFlow (s : Scan) : Bool := !s.outer.isEmpty

/-- The leftmost column that lies inside of the innermost block collection. -/
def margin (s : Scan) : Nat :=
  match s.levels with
  | [] => 0
  | column :: _ => column + 1

def push (s : Scan) (t : Token) : Scan := { s with tokens := s.tokens ++ [t] }

/-- Puts a token behind so many others. -/
def insert (s : Scan) (index : Nat) (t : Token) : Scan :=
  { s with tokens := s.tokens.take index ++ t :: s.tokens.drop index }

/-- Adds the token that was read up to a place. -/
def take (s : Scan) (t : Token) (after : Cursor) : Scan := { s.push t with cursor := after }

/-! ## Candidates for keys -/

/-- Says whether a token that starts here may be a key. -/
def allowKey (s : Scan) (allowed : Bool) : Scan := { s with keyAllowed := allowed }

/-- A candidate cannot be a key any more. -/
def isStale (s : Scan) (k : Candidate) : Bool :=
  k.place.line < s.cursor.line || k.place.offset + 1024 < s.cursor.offset

/-- The candidate, if it still can be a key. -/
def refresh? (s : Scan) : Option Candidate → Option (Option Candidate)
  | none => some none
  | some k => if s.isStale k then if k.required then none else some none else some (some k)

/-- Drops candidates that cannot be keys any more. -/
def dropStale? (s : Scan) : Option Scan := do
  return { s with candidate := ← s.refresh? s.candidate, outer := ← s.outer.mapM s.refresh? }

/-- Drops the innermost candidate. -/
def dropCandidate? (s : Scan) : Option Scan :=
  if s.candidate.any Candidate.required then none else some { s with candidate := none }

/-- Makes the token that starts here the innermost candidate, if it may be a key. -/
def saveCandidate? (s : Scan) : Option Scan :=
  if s.keyAllowed then
    s.dropCandidate?.map fun dropped =>
      let required := s.inFlow && s.levels.head? = some s.cursor.column
      { dropped with candidate := some ⟨s.tokens.length, s.cursor, required⟩ }
  else some s

/-! ## Block collections -/

/-- Begins a block collection behind so many tokens, if the column lies further to the right than
those that are open. -/
def openBlock (s : Scan) (column index : Nat) (t : Token) : Scan :=
  if s.inFlow || column < s.margin then s
  else { s.insert index t with levels := column :: s.levels }

/-- Ends so many block collections. -/
def closeBlocks (s : Scan) (n : Nat) : Scan :=
  if s.inFlow then s
  else
    { s with tokens := s.tokens ++ List.replicate n .blockEnd, levels := s.levels.drop n }

/-- Ends the block collections to the right of a column. -/
def closeRightOf (s : Scan) (column : Nat) : Scan :=
  s.closeBlocks (s.levels.takeWhile (column < ·)).length

/-- Ends all block collections. -/
def closeAll (s : Scan) : Scan := s.closeBlocks s.levels.length

/-! ## White space -/

/-- Passes over white space and comments, for at most so many steps. Outside of flow collections a
key may start on every new line, and no tab may stand before one. -/
def skipWhite : Nat → Scan → Scan
  | 0, s => s
  | n + 1, s =>
    match s.cursor.rest with
    | [] => s
    | d :: _ =>
      if isBreak d then
        skipWhite n { s with cursor := s.cursor.skipBreak, keyAllowed := s.keyAllowed || !s.inFlow }
      else if d = ' ' || (d = '\t' && (s.inFlow || !s.keyAllowed)) then
        skipWhite n { s with cursor := s.cursor.next }
      else if d = '#' then skipWhite n { s with cursor := s.cursor.skipComment }
      else s

/-! ## Single tokens -/

def directive? (s : Scan) : Option Scan :=
  s.closeAll.dropCandidate?.bind fun s =>
    (skipDirective? s.cursor).map fun after => (s.allowKey false).take .directive after

/-- Reads a mark between documents. -/
def documentMark? (s : Scan) (t : Token) : Option Scan :=
  s.closeAll.dropCandidate?.map fun s => (s.allowKey false).take t (s.cursor.advance 3)

/-- Reads the start of a flow collection, of which at most 255 can be open. -/
def flowStart? (s : Scan) (t : Token) : Option Scan :=
  if s.outer.length = 255 then none
  else
    s.saveCandidate?.map fun s =>
      { (s.allowKey true).take t s.cursor.next with
        candidate := none
        outer := s.candidate :: s.outer }

/-- Reads the end of a flow collection. -/
def flowEnd? (s : Scan) (t : Token) : Option Scan :=
  s.dropCandidate?.map fun s =>
    let s := (s.allowKey false).take t s.cursor.next
    match s.outer with
    | [] => s
    | candidate :: outer => { s with candidate, outer }

def comma? (s : Scan) : Option Scan :=
  s.dropCandidate?.map fun s => (s.allowKey true).take .comma s.cursor.next

/-- Reads the dash before an item. -/
def item? (s : Scan) : Option Scan :=
  if s.inFlow || !s.keyAllowed then none
  else
    (s.openBlock s.cursor.column s.tokens.length .blockSequence).dropCandidate?.map fun s =>
      (s.allowKey true).take .item s.cursor.next

/-- Reads the question mark before a key. -/
def key? (s : Scan) : Option Scan :=
  if !s.inFlow && !s.keyAllowed then none
  else
    (s.openBlock s.cursor.column s.tokens.length .blockMapping).dropCandidate?.map fun s =>
      (s.allowKey !s.inFlow).take .key s.cursor.next

/-- Reads the colon before a value. If there is a candidate, it is the key. -/
def value? (s : Scan) : Option Scan :=
  match s.candidate with
  | some k =>
    let s := (s.insert k.index .key).openBlock k.place.column k.index .blockMapping
    some ({ s with candidate := none, keyAllowed := false }.take .value s.cursor.next)
  | none =>
    if !s.inFlow && !s.keyAllowed then none
    else
      let s := s.openBlock s.cursor.column s.tokens.length .blockMapping
      some ((s.allowKey !s.inFlow).take .value s.cursor.next)

/-- Reads a name with its mark. -/
def name? (s : Scan) (t : String → Token) : Option Scan :=
  s.saveCandidate?.bind fun s =>
    (takeName? s.cursor).map fun (name, after) => (s.allowKey false).take (t name) after

def tag? (s : Scan) : Option Scan :=
  s.saveCandidate?.bind fun s =>
    (takeTag? s.cursor).map fun (tag, after) => (s.allowKey false).take (.tag tag) after

def block? (s : Scan) (literal : Bool) : Option Scan :=
  s.saveCandidate?.bind fun s =>
    (Block.take? literal s.margin s.cursor).map fun (text, after) =>
      (s.allowKey true).take (.scalar false (String.ofList text)) after

/-- Reads a quoted scalar. -/
def quotes? (s : Scan) (double : Bool) : Option Scan :=
  s.saveCandidate?.bind fun s =>
    (takeQuotes? double s.cursor).map fun (text, after) =>
      { (s.allowKey false).take (.scalar false (String.ofList text)) after with
        adjacent := some after.offset }

/-- Reads a plain scalar. A key may follow on the line behind it. -/
def plain? (s : Scan) : Option Scan :=
  s.saveCandidate?.bind fun s =>
    (PlainScalar.take? s.inFlow s.margin s.cursor).map fun p =>
      (s.allowKey p.broken).take (.scalar true (String.ofList p.text)) p.after

/-! ## The tokens of a text -/

/-- A colon before these characters is the one before a value. -/
def isValueMark (s : Scan) (rest : List Char) : Bool :=
  whiteFollows rest ||
    (s.inFlow && (rest.head?.any isFlowMark || s.adjacent = some s.cursor.offset))

/-- Reads the token that starts with a character before others. -/
def token? (s : Scan) (c : Char) (rest : List Char) : Option Scan :=
  if c = '%' && s.cursor.column = 0 then s.directive?
  else if s.cursor.atTriple '-' then s.documentMark? .documentStart
  else if s.cursor.atTriple '.' then s.documentMark? .documentEnd
  else
    match c with
    | '[' => s.flowStart? .flowSequence
    | '\x7b' => s.flowStart? .flowMapping
    | ']' => s.flowEnd? .flowSequenceEnd
    | '\x7d' => s.flowEnd? .flowMappingEnd
    | ',' => s.comma?
    | '-' => if whiteFollows rest then s.item? else s.plain?
    | '?' => if whiteFollows rest then s.key? else s.plain?
    | ':' => if s.isValueMark rest then s.value? else s.plain?
    | '*' => s.name? .reference
    | '&' => s.name? .anchor
    | '!' => s.tag?
    | '|' => if s.inFlow then s.plain? else s.block? true
    | '>' => if s.inFlow then s.plain? else s.block? false
    | '\'' => s.quotes? false
    | '"' => s.quotes? true
    | '%' | '@' | '\x60' => none
    | _ => s.plain?

/-- Reads the next tokens, unless the text has ended: at least one and the ends of the block
collections before it. -/
def run : Nat → Scan → Option Scan
  | 0, _ => none
  | n + 1, s =>
    (skipWhite s.cursor.rest.length s).dropStale?.bind fun s =>
      let s := s.closeRightOf s.cursor.column
      match s.cursor.rest with
      | [] => s.closeAll.dropCandidate?
      | c :: rest => (s.token? c rest).bind (run n)

end Scan

/-- The tokens of a text, which ends before the first character of number zero. Each step but the
last one reads a character. -/
def tokens? (s : List Char) : Option (List Token) :=
  let s := s.takeWhile (· ≠ '\x00')
  ((Scan.start s).run (s.length + 1)).map Scan.tokens

end ClusterTrace.Yaml
