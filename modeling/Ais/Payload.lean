import Ais.Bytes.FixedText
import Ais.Limits
import Ais.Text.Quoted

/-!
# Payloads

A payload is the bits of a message, packed into bytes from the most significant bit on.  `bits` of
them are valid; the last byte may hold more.  The record is filled in place.
-/

namespace Ais

structure Payload where
  packed  : FixedText Limits.payloadBytes
  bits    : Nat
  /-- The channel of the message. -/
  channel : Option UInt8
deriving DecidableEq

namespace Payload

/-- No bits, in storage that is all zero. -/
def empty : Payload := ⟨.empty _, 0, none⟩

instance : Inhabited Payload := ⟨empty⟩

def bytes (p : Payload) : List UInt8 := p.packed.bytes

def isEmpty (p : Payload) : Bool := p.bits == 0

/-- No bits and no channel; the storage keeps the last payload. -/
def clear (p : Payload) : Payload := ⟨p.packed.clear, 0, none⟩

/-- The payload as a record. -/
def inspect (p : Payload) : String :=
  Text.record "PackedPayload" [
    ("bits_used", toString p.bits),
    ("channel", Text.optional (p.channel.map fun c => Text.quotedChar (Char.ofNat c.toNat))),
    ("bytes", Text.listed (p.bytes.map toString))]

end Payload

end Ais
