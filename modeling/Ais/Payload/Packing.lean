import Ais.Armour
import Ais.Message
import Ais.Payload

/-!
# Payload — taking the armour off

Armoured characters become packed bits.  Four characters at a time, and the last few singly, enter a
64-bit accumulator from its most significant end; a full accumulator is written out as eight bytes,
and the last one as many bytes as it holds bits of.  The fill count says how many of the last bits
are not valid.
-/

namespace Ais

/-- Bits on their way into storage: the whole words are in `out`, and the top `held` bits of `acc`
come next. -/
structure Packer (n : Nat) where
  out  : FixedText n
  acc  : UInt64
  held : Nat

namespace Packer

variable {n : Nat}

/-- The eight bytes of a word, most significant first. -/
def wordBytes (w : UInt64) : List UInt8 :=
  [(w >>> 56).toUInt8, (w >>> 48).toUInt8, (w >>> 40).toUInt8, (w >>> 32).toUInt8,
   (w >>> 24).toUInt8, (w >>> 16).toUInt8, (w >>> 8).toUInt8, w.toUInt8]

/-- Nothing packed, into the storage of `out`. -/
def start (out : FixedText n) : Packer n := ⟨out.clear, 0, 0⟩

/-- Bytes go out, if the storage has room. -/
def write (p : Packer n) (bytes : List UInt8) : Except Fault (FixedText n) :=
  match p.out.append bytes with
  | .ok out  => .ok out
  | .error _ => .error (.length .packed)

/-- Packs the low `width` bits of `value`.  Where they do not all fit, or just fit, the accumulator
goes out and the rest opens the next. -/
def push (p : Packer n) (value : UInt64) (width : Nat) : Except Fault (Packer n) :=
  let room := 64 - p.held
  if width < room then
    .ok { p with acc := p.acc ||| value <<< UInt64.ofNat (room - width), held := p.held + width }
  else
    let spill := width - room
    match p.write (wordBytes (p.acc ||| value >>> UInt64.ofNat spill)) with
    | .error f => .error f
    | .ok out  => .ok ⟨out, if spill = 0 then 0 else value <<< UInt64.ofNat (64 - spill), spill⟩

/-- Writes what the accumulator holds, filled up to a byte with zero bits. -/
def finish (p : Packer n) : Except Fault (FixedText n) :=
  p.write ((wordBytes p.acc).take ((p.held + 7) / 8))

/-- The 24 bits of four characters. -/
def quad (a b c d : UInt8) : UInt64 :=
  (Armour.value a).toUInt64 <<< 18 ||| (Armour.value b).toUInt64 <<< 12 |||
    (Armour.value c).toUInt64 <<< 6 ||| (Armour.value d).toUInt64

/-- Packs characters one by one. -/
def singles (p : Packer n) : List UInt8 → Except Fault (Packer n)
  | []      => .ok p
  | c :: cs =>
    match p.push (Armour.value c).toUInt64 6 with
    | .error f => .error f
    | .ok p    => p.singles cs

/-- Packs characters four at a time, and the last ones singly. -/
def armoured (p : Packer n) : List UInt8 → Except Fault (Packer n)
  | a :: b :: c :: d :: rest =>
    match p.push (quad a b c d) 24 with
    | .error f => .error f
    | .ok p    => p.armoured rest
  | rest => p.singles rest

end Packer

namespace Payload

/-- Fills the payload from armoured text, and says how many bits it has.  Text that is too long, a
fill count that is too large, and text with no bits are refused and leave the payload empty. -/
def dearmour (p : Payload) (armoured : List UInt8) (fill : UInt8) : Payload × Except Fault Nat :=
  if Limits.armouredChars < armoured.length then
    (p.clear, .error (.length (.armour armoured.length Limits.armouredChars)))
  else if Limits.fillBits < fill.toNat then (p.clear, .error (.length (.fill fill)))
  else if armoured.length * 6 ≤ fill.toNat then (p.clear, .error .emptyPayload)
  else
    match ((Packer.start p.packed).armoured armoured).bind Packer.finish with
    | .error f   => (p.clear, .error f)
    | .ok packed =>
      let bits := armoured.length * 6 - fill.toNat
      (⟨packed, bits, none⟩, .ok bits)

/-- As `dearmour`, with no bits for text that is refused. -/
def dearmourBits (p : Payload) (armoured : List UInt8) (fill : UInt8) : Payload × Nat :=
  let (p, r) := p.dearmour armoured fill
  (p, r.toOption.getD 0)

/-- Fills the payload from a message, whose channel it takes. -/
def ofMessage (p : Payload) (m : Message) : Payload × Nat :=
  let (p, bits) := p.dearmourBits m.payload.bytes m.fill
  ({ p with channel := m.channel }, bits)

end Payload

end Ais
