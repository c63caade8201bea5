import ClusterTrace.Text.Blank
import ClusterTrace.Text.Utf8

/-!
# Reading delimited records

Comma-separated records as bytes. A record ends at a line feed or a carriage return, and line ends
before a record give no record. A field that opens with a double quote runs to the closing one, with
commas and line ends inside and `""` for a quote; what follows the closing quote up to the comma is
taken as it is. A field that is never closed runs to the end of the input.

The reader is a fold of `Scan.push` over the bytes. It keeps the place where the search for each
record began: the line of a record is counted there, so line ends skipped before a record are not in
it yet.
-/

namespace ClusterTrace.Delimited

/-- A place in the input. -/
structure Mark where
  /-- The number of bytes before it. -/
  offset : Nat
  /-- The number of line feeds before it. -/
  feeds : Nat
deriving DecidableEq

/-- The place behind one more byte. -/
def Mark.after (m : Mark) (b : UInt8) : Mark :=
  { offset := m.offset + 1, feeds := if b = 0x0A then m.feeds + 1 else m.feeds }

/-- A record as it was found. -/
structure RawRecord where
  /-- Where the search for the record began. -/
  start : Mark
  /-- The fields without their quotes. -/
  fields : List Bytes
deriving DecidableEq

/-- Where the reader stands. -/
inductive Phase where
  /-- Between records. -/
  | outside
  /-- Before the first byte of a field. -/
  | opening
  /-- In a field or a part of one without quotes. -/
  | bare
  /-- Between the quotes of a field. -/
  | quoted
  /-- Behind a quote in a quoted field, which closes it unless another one follows. -/
  | closing
deriving DecidableEq

/-- The state of the reader between two bytes. -/
structure Scan where
  /-- The place reached. -/
  here : Mark
  /-- Where the search for the record under way began. -/
  start : Mark
  /-- Where in a record the reader stands. -/
  phase : Phase
  /-- The bytes of the field under way, the last one first. -/
  field : Bytes
  /-- The finished fields of the record under way, the last one first. -/
  fields : List Bytes
  /-- The finished records, the last one first. -/
  records : List RawRecord

namespace Scan

/-- The state before the first byte. -/
def initial : Scan := ⟨⟨0, 0⟩, ⟨0, 0⟩, .outside, [], [], []⟩

def endsRecord (b : UInt8) : Bool := b = 0x0A || b = 0x0D

/-- The byte is a double quote. -/
def isQuote (b : UInt8) : Bool := b = 0x22

def isComma (b : UInt8) : Bool := b = 0x2C

/-- Takes a byte into the field under way. -/
def take (s : Scan) (b : UInt8) (phase : Phase) : Scan :=
  { s with field := b :: s.field, phase }

/-- Ends the field under way. -/
def endField (s : Scan) : Scan :=
  { s with field := [], fields := s.field.reverse :: s.fields, phase := .opening }

/-- Ends the record under way; the search for the next one begins here. -/
def endRecord (s : Scan) : Scan :=
  { here := s.here, start := s.here, phase := .outside, field := [], fields := []
    records := ⟨s.start, (s.field.reverse :: s.fields).reverse⟩ :: s.records }

/-- Reads a byte outside of quotes. -/
def pushBare (s : Scan) (b : UInt8) : Scan :=
  if endsRecord b then s.endRecord
  else if isComma b then s.endField
  else s.take b .bare

/-- Reads a byte at the start of a field. -/
def pushOpening (s : Scan) (b : UInt8) : Scan :=
  if isQuote b then { s with phase := .quoted } else s.pushBare b

/-- Reads one byte. -/
def push (s : Scan) (b : UInt8) : Scan :=
  let s := { s with here := s.here.after b }
  match s.phase with
  | .outside => if endsRecord b then s else s.pushOpening b
  | .opening => s.pushOpening b
  | .bare => s.pushBare b
  | .quoted => if isQuote b then { s with phase := .closing } else s.take b .quoted
  | .closing => if isQuote b then s.take b .quoted else s.pushBare b

/-- The records when the input ends here. -/
def finish (s : Scan) : List RawRecord :=
  if s.phase = .outside then s.records.reverse else s.endRecord.records.reverse

end Scan

/-- The mark that some files carry at their very start. -/
def byteOrderMark : Bytes := [0xEF, 0xBB, 0xBF]

/-- The records of some bytes, without a byte order mark at their start. -/
def rawRecords (bytes : Bytes) : List RawRecord :=
  let s := if byteOrderMark.isPrefixOf bytes then { Scan.initial with here := ⟨3, 0⟩ }
    else Scan.initial
  ((bytes.drop s.here.offset).foldl Scan.push s).finish

/-! ## Records as text -/

/-- A record as text, its fields without white space at their ends. -/
structure Record where
  /-- One more than the number of line feeds before the search for the record began. -/
  line : Nat
  fields : List String
deriving DecidableEq

/-- Why a record is no text. -/
structure Undecodable where
  /-- The number of records before it. -/
  record : Nat
  line : Nat
  /-- The number of fields before the first that is no text. -/
  field : Nat
  /-- The number of bytes before the place where the search for the record began. -/
  offset : Nat
  /-- The number of bytes of the field that are text, without the blanks at its start. -/
  valid : Nat
deriving DecidableEq

/-- What an undecodable record is reported as. -/
def Undecodable.message (u : Undecodable) : String :=
  s!"CSV parse error: record {u.record} (line {u.line}, field: {u.field}, byte: {u.offset}): " ++
    s!"invalid utf-8: invalid UTF-8 in field {u.field} near byte index {u.valid}"

def RawRecord.line (r : RawRecord) : Nat := r.start.feeds + 1

/-- The number of blanks at the start of a field: spaces, tabs, line feeds, form feeds and carriage
returns. -/
def leadingBlanks (field : Bytes) : Nat :=
  (field.takeWhile fun b => b = 0x20 || b = 0x09 || b = 0x0A || b = 0x0C || b = 0x0D).length

/-- Reads fields as text, given the number of fields before them; fails with the number of the first
field that is no text and the number of its bytes that are, of which the blanks at its start do not
count. -/
def decodeFields (number : Nat) : List Bytes → Except (Nat × Nat) (List String)
  | [] => .ok []
  | field :: rest =>
    match Utf8.decode? field with
    | .error valid => .error (number, valid - leadingBlanks field)
    | .ok text =>
      (decodeFields (number + 1) rest).map fun texts => String.ofList (Text.trim text) :: texts

/-- Reads a record as text, given the number of records before it. -/
def RawRecord.decode (r : RawRecord) (number : Nat) : Except Undecodable Record :=
  match decodeFields 0 r.fields with
  | .error (field, valid) => .error ⟨number, r.line, field, r.start.offset, valid⟩
  | .ok fields => .ok ⟨r.line, fields⟩

/-- The records of some bytes as text, each one by itself. -/
def records (bytes : Bytes) : List (Except Undecodable Record) :=
  (rawRecords bytes).mapIdx fun number r => r.decode number

end ClusterTrace.Delimited
