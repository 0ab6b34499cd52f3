import Ais.Payload
import Ais.SixBit

/-!
# Payload — reading fields

A reader walks the valid bits of a payload from the first on.  Each read takes a field of so many
bits and moves the reader past it, whether it succeeds or not, so what is read next stays in step.
A field is cut out of a window of two or six bytes, by one shift to drop what lies before it and one
to drop what lies behind.
-/

namespace Ais

/-- A place among the valid bits of a payload. -/
structure Reader where
  bytes  : List UInt8
  bits   : Nat
  offset : Nat

/-- Reads, in order, against one reader. -/
abbrev Read (α : Type) := ExceptT Fault (StateM Reader) α

/-- Starts at the bit `offset`. -/
def Payload.readerAt (p : Payload) (offset : Nat) : Reader := ⟨p.bytes, p.bits, offset⟩

/-- Starts at the first bit. -/
def Payload.reader (p : Payload) : Reader := p.readerAt 0

namespace Reader

/-- The widest number a read takes. -/
def widest : Nat := 32

/-- Moves on by `width` bits, or to the largest offset there is. -/
def advance (r : Reader) (width : Nat) : Reader :=
  { r with offset := min (r.offset + width) Limits.word }

/-- Moves to the bit `offset`. -/
def seek (r : Reader) (offset : Nat) : Reader := { r with offset }

/-- The valid bits ahead. -/
def remaining (r : Reader) : Nat := r.bits - r.offset

/-- The bytes side by side in a word, the first at byte `k`. -/
def gather (k : Nat) : List UInt8 → UInt64
  | []      => 0
  | b :: bs => b.toUInt64 <<< UInt64.ofNat (8 * k) ||| gather (k - 1) bs

/-- A word that begins with the bit `start`.  Two bytes hold any field of up to nine bits and six
any of up to 32; what lies past the payload reads as zero. -/
def window (r : Reader) (start width : Nat) : UInt64 :=
  let bytes := (r.bytes.drop (start / 8)).take (if 9 < width then 6 else 2)
  gather 5 bytes <<< UInt64.ofNat (16 + start % 8)

/-- Moves past a field and says where it starts, if it lies among the valid bits. -/
def claim (width : Nat) : Read Nat := ExceptT.mk fun r =>
  (if r.offset + width ≤ r.bits then .ok r.offset
    else .error (.outOfBounds r.offset width r.bits), r.advance width)

/-- Moves past a field unread. -/
def skip (width : Nat) : Read Unit := ExceptT.mk fun r => (.ok (), r.advance width)

/-- As `claim`, for a number, which has from 1 to 32 bits. -/
def claimNumber (width : Nat) : Read Nat :=
  if width = 0 ∨ widest < width then do
    skip width
    throw (.length (.width width widest))
  else claim width

/-- A number without sign. -/
def unsigned (width : Nat) : Read UInt32 := do
  let start ← claimNumber width
  return ((← get).window start width >>> UInt64.ofNat (64 - width)).toUInt32

/-- A number in two's complement. -/
def signed (width : Nat) : Read Int32 := do
  let start ← claimNumber width
  return (((← get).window start width).toInt64 >>> Int64.ofNat (64 - width)).toInt32

/-- One bit. -/
def bool : Read Bool := do return (← unsigned 1) != 0

/-- The letters of `n` groups of six bits from `start` on, up to the first that is zero. -/
def letters (r : Reader) (start : Nat) : Nat → List Char
  | 0     => []
  | n + 1 =>
    let code := (r.window start 6 >>> 58).toUInt8
    if code = 0 then [] else SixBit.letter code :: r.letters (start + 6) n

/-- A text field: its letters up to the first `@`, without blanks at the end. -/
def text (width : Nat) : Read String := do
  let start ← claim width
  return String.ofList (SixBit.trimmed ((← get).letters start (width / 6)))

end Reader

namespace Payload

/-- What the reads yield from the first bit on. -/
def read {α : Type} (p : Payload) (reads : Read α) : Except Fault α := (reads.run p.reader).1

/-- The type of the message, its first six bits. -/
def messageType (p : Payload) : Except Fault UInt8 :=
  p.read do return (← Reader.unsigned 6).toUInt8

end Payload

end Ais
