import ClusterTrace.Yaml.Scalar

/-!
# Tags, names and directives

A tag says what kind of value a node has: `!handle!suffix`, `!suffix`, or `!<suffix>` for a whole
address. The suffix is written like an address, in which a percent sign and two digits stand for a
byte. A name follows `&` where a node is given one and `*` where it is used. A directive is a line
that starts with a percent sign; it must be well formed and means nothing here.
-/

namespace ClusterTrace.Yaml

/-- The kind of a value as it is written. -/
structure Tag where
  /-- The text up to the second exclamation mark. -/
  handle : String
  /-- The text behind it. -/
  suffix : String
deriving DecidableEq

/-! ## Addresses -/

/-- The character may stand in an address. -/
def isAddress (c : Char) : Bool := isWord c || ";/?:@&=+$,.!~*'()[]".toList.contains c

/-- The byte that a percent sign and two digits stand for. -/
def readOctet? : List Char → Option Nat
  | '%' :: a :: b :: _ => readInBase? 16 [a, b]
  | _ => none

/-- The number of bytes that a first byte announces. -/
def octetCount? (octet : Nat) : Option Nat :=
  if octet < 0x80 then some 1
  else if octet / 32 = 6 then some 2
  else if octet / 16 = 14 then some 3
  else if octet / 8 = 30 then some 4
  else none

/-- Reads so many further bytes, each of which must not be a first one. All bytes are put side by
side into one number. -/
def moreOctets? : Nat → Nat → Cursor → Option (Nat × Cursor)
  | 0, number, c => some (number, c)
  | n + 1, number, c =>
    (readOctet? c.rest).bind fun octet =>
      if octet / 64 = 2 then moreOctets? n (256 * number + octet) (c.advance 3) else none

/-- The character that bytes after percent signs stand for. -/
def takeOctets? (c : Cursor) : Option (Char × Cursor) := do
  let first ← readOctet? c.rest
  let count ← octetCount? first
  let (number, c) ← moreOctets? (count - 1) first (c.advance 3)
  return (← charOfNumber? number, c)

/-- Goes on with an address for at most so many characters. -/
def takeAddressFrom : Nat → List Char → Cursor → Option (List Char × Cursor)
  | 0, text, c => some (text, c)
  | n + 1, text, c =>
    match c.rest with
    | [] => some (text, c)
    | d :: _ =>
      if d = '%' then
        (takeOctets? c).bind fun (d, c) => takeAddressFrom n (text ++ [d]) c
      else if isAddress d then takeAddressFrom n (text ++ [d]) c.next
      else some (text, c)

/-- The address that starts here and the place behind it. -/
def takeAddress? (c : Cursor) : Option (List Char × Cursor) :=
  takeAddressFrom c.rest.length [] c

/-- An address of at least one character. -/
def takeSomeAddress? (c : Cursor) : Option (List Char × Cursor) :=
  (takeAddress? c).filter fun r => r.1 ≠ []

/-! ## Tags -/

/-- An exclamation mark, a word, and a second exclamation mark if one follows. -/
def takeHandle? (c : Cursor) : Option (List Char × Cursor) :=
  if c.rest.head? = some '!' then
    let (word, c) := c.next.takeWhile isWord
    if c.rest.head? = some '!' then some ('!' :: word ++ ['!'], c.next) else some ('!' :: word, c)
  else none

/-- The text is a handle: it ends in a second exclamation mark. -/
def isHandle (s : List Char) : Bool := 2 ≤ s.length && s.getLast? = some '!'

/-- A tag behind `!<`, which an angle bracket ends. -/
def takeVerbatimTag? (c : Cursor) : Option (Tag × Cursor) :=
  (takeSomeAddress? c).bind fun (suffix, c) =>
    if c.rest.head? = some '>' then some (⟨"", String.ofList suffix⟩, c.next) else none

/-- A tag with a handle or without one. A lone exclamation mark is a suffix. -/
def takeShortTag? (c : Cursor) : Option (Tag × Cursor) :=
  (takeHandle? c).bind fun (handle, c) =>
    if isHandle handle then
      (takeSomeAddress? c).map fun (suffix, c) => (⟨String.ofList handle, String.ofList suffix⟩, c)
    else
      (takeAddress? c).map fun (more, c) =>
        let suffix := handle.tail ++ more
        (if suffix = [] then ⟨"", "!"⟩ else ⟨"!", String.ofList suffix⟩, c)

/-- The tag that starts here and the place behind it, where white space must follow. -/
def takeTag? (c : Cursor) : Option (Tag × Cursor) :=
  let tag := match c.rest with
    | '!' :: '<' :: _ => takeVerbatimTag? (c.advance 2)
    | _ => takeShortTag? c
  tag.filter fun r => whiteFollows r.2.rest

/-! ## Names -/

/-- A name may be followed by these characters. -/
def endsName : List Char → Bool
  | [] => true
  | c :: _ => isWhite c || "?:,]\x7d%@\x60".toList.contains c

/-- The name behind the mark that stands here and the place behind it. -/
def takeName? (c : Cursor) : Option (String × Cursor) :=
  let (name, c) := c.next.takeWhile isWord
  if name ≠ [] ∧ endsName c.rest then some (String.ofList name, c) else none

/-! ## Directives -/

/-- The place behind a number of at most nine digits. -/
def skipNumber? (c : Cursor) : Option Cursor :=
  let (digits, c) := c.takeWhile Char.isDigit
  if digits ≠ [] ∧ digits.length ≤ 9 then some c else none

/-- The place behind a version: two numbers and a point. -/
def skipVersion? (c : Cursor) : Option Cursor :=
  (skipNumber? c).bind fun c => if c.rest.head? = some '.' then skipNumber? c.next else none

/-- The place behind a handle and the address it stands for. -/
def skipHandleMeaning? (c : Cursor) : Option Cursor := do
  let (handle, c) ← takeHandle? c
  if handle = ['!'] ∨ isHandle handle then
    let (_, c) ← takeSomeAddress? (c.skipWhile isBlank)
    if whiteFollows c.rest then some c else none
  else none

/-- The place behind the line of the directive that starts here. -/
def skipDirective? (c : Cursor) : Option Cursor :=
  let (name, c) := c.next.takeWhile isWord
  if name = [] || !whiteFollows c.rest then none
  else
    let value :=
      if name = "YAML".toList then skipVersion? (c.skipWhile isBlank)
      else if name = "TAG".toList then skipHandleMeaning? (c.skipWhile isBlank)
      else some (c.skipWhile fun d => !isBreak d)
    value.bind Cursor.skipLine?

end ClusterTrace.Yaml
