/-!
# UTF-8

Text as bytes. Well-formed sequences are those of the Unicode standard: no overlong forms, no
surrogates, nothing above U+10FFFF. A *damaged part* is a maximal start of a sequence that the next
byte (or the end of the bytes) breaks off, or a single byte that starts no sequence.

`Utf8.decode?` reads bytes that must be well formed and says how many of them are before the first
damage; `Utf8.decodeLossy` puts U+FFFD for every damaged part.
-/

namespace ClusterTrace

/-- A sequence of bytes, such as the content of a file. -/
abbrev Bytes := List UInt8

namespace Utf8

/-! ## One sequence -/

/-- How the bytes at some place start. -/
inductive Lead where
  /-- A character written with so many bytes after its first one. -/
  | scalar (c : Char) (more : Nat)
  /-- A damaged part with so many bytes after its first one. -/
  | damage (more : Nat)
deriving DecidableEq

/-- The byte is one that continues a sequence. -/
def isContinuation (b : UInt8) : Bool := 0x80 ≤ b.toNat && b.toNat < 0xC0

/-- The bytes that may follow the first byte of a longer sequence. They exclude overlong forms,
surrogates and numbers that are too large. -/
def secondAllowed (first second : UInt8) : Bool :=
  let low := if first = 0xE0 then 0xA0 else if first = 0xF0 then 0x90 else 0x80
  let high := if first = 0xED then 0xA0 else if first = 0xF4 then 0x90 else 0xC0
  low ≤ second.toNat && second.toNat < high

/-- The six bits that a continuation byte carries. -/
def payload (b : UInt8) : Nat := b.toNat % 64

/-- A sequence of two bytes. -/
def lead2 (first : UInt8) : Bytes → Lead
  | b :: _ =>
    if isContinuation b then .scalar (Char.ofNat (first.toNat % 32 * 64 + payload b)) 1
    else .damage 0
  | [] => .damage 0

/-- A sequence of three bytes. -/
def lead3 (first : UInt8) : Bytes → Lead
  | b :: c :: _ =>
    if !secondAllowed first b then .damage 0
    else if !isContinuation c then .damage 1
    else .scalar (Char.ofNat ((first.toNat % 16 * 64 + payload b) * 64 + payload c)) 2
  | [b] => .damage (if secondAllowed first b then 1 else 0)
  | [] => .damage 0

/-- A sequence of four bytes. -/
def lead4 (first : UInt8) : Bytes → Lead
  | b :: c :: d :: _ =>
    if !secondAllowed first b then .damage 0
    else if !isContinuation c then .damage 1
    else if !isContinuation d then .damage 2
    else .scalar
      (Char.ofNat (((first.toNat % 8 * 64 + payload b) * 64 + payload c) * 64 + payload d)) 3
  | [b, c] =>
    if !secondAllowed first b then .damage 0 else .damage (if isContinuation c then 2 else 1)
  | [b] => .damage (if secondAllowed first b then 1 else 0)
  | [] => .damage 0

/-- How bytes start, given the first of them and the rest. -/
def lead (first : UInt8) (rest : Bytes) : Lead :=
  let n := first.toNat
  if n < 0x80 then .scalar (Char.ofNat n) 0
  else if n < 0xC2 then .damage 0
  else if n < 0xE0 then lead2 first rest
  else if n < 0xF0 then lead3 first rest
  else if n < 0xF5 then lead4 first rest
  else .damage 0

/-! ## Whole texts -/

/-- Reads well-formed bytes, with the characters read so far in reverse, the number of bytes read so
far and the number of bytes that still belong to the last character. -/
def decodeFrom? (done : List Char) (position skip : Nat) : Bytes → Except Nat (List Char)
  | [] => .ok done.reverse
  | b :: rest =>
    match skip with
    | skip + 1 => decodeFrom? done (position + 1) skip rest
    | 0 =>
      match lead b rest with
      | .scalar c more => decodeFrom? (c :: done) (position + 1) more rest
      | .damage _ => .error position

/-- Reads well-formed bytes; fails with the number of bytes before the first damaged part. -/
def decode? (bytes : Bytes) : Except Nat (List Char) := decodeFrom? [] 0 0 bytes

/-- What stands for a damaged part. -/
def replacement : Char := '\uFFFD'

/-- Reads any bytes, with the characters read so far in reverse and the number of bytes that still
belong to the last character or damaged part. -/
def decodeLossyFrom (done : List Char) (skip : Nat) : Bytes → List Char
  | [] => done.reverse
  | b :: rest =>
    match skip with
    | skip + 1 => decodeLossyFrom done skip rest
    | 0 =>
      match lead b rest with
      | .scalar c more => decodeLossyFrom (c :: done) more rest
      | .damage more => decodeLossyFrom (replacement :: done) more rest

/-- Reads any bytes, with a replacement character for every damaged part. -/
def decodeLossy (bytes : Bytes) : List Char := decodeLossyFrom [] 0 bytes

def encode (s : String) : Bytes := s.toUTF8.toList

end Utf8

end ClusterTrace
