import Ais.Bytes.FixedText
import Ais.Bytes.Span
import Ais.Checksum

/-!
# Sentences

A sentence is one line of traffic, without start delimiter and line terminator.  A message too long
for one line is cut into up to nine, numbered, and tied together by a one-digit id.  The record
keeps a copy of the line and, as a span of it, the armoured payload; it is filled in place, and
`reset` takes it back to no sentence without wiping the storage.
-/

namespace Ais

structure Sentence where
  text      : FixedText Limits.sentenceBytes
  payload   : Span
  /-- How many sentences the message has. -/
  count     : UInt8
  /-- Which of them this one is, from 1. -/
  number    : UInt8
  messageId : Option UInt8
  /-- The radio channel, as the byte transmitted. -/
  channel   : Option UInt8
  /-- Bits of padding at the end of the payload. -/
  fill      : UInt8
  /-- The checksum transmitted. -/
  checksum  : UInt8
deriving DecidableEq

namespace Sentence

/-- No sentence, in storage that is all zero. -/
def empty : Sentence where
  text      := .empty _
  payload   := .empty
  count     := 0
  number    := 0
  messageId := none
  channel   := none
  fill      := 0
  checksum  := 0

instance : Inhabited Sentence := ⟨empty⟩

/-- No sentence; the storage keeps the last one. -/
def reset (s : Sentence) : Sentence := { empty with text := s.text.clear }

/-- The armoured characters. -/
def payloadBytes (s : Sentence) : List UInt8 := (s.payload.of? s.text.bytes).getD []

/-- A message of its own. -/
def isSingle (s : Sentence) : Bool := s.count == 1

/-- The reassembly slot; sentences without an id share slot 0. -/
def slot (s : Sentence) : Nat := (s.messageId.getD 0).toNat

/-- The checksum of the sentence as it stands. -/
def computed (s : Sentence) : UInt8 := Checksum.compute (Checksum.body s.text.bytes)

/-- Whether the checksum transmitted is the checksum of the sentence. -/
def isValid (s : Sentence) : Bool := s.computed == s.checksum

/-- Fails where the checksum transmitted is another. -/
def validate (s : Sentence) : Except Fault Unit :=
  if s.isValid then .ok () else .error (.checksum s.checksum s.computed)

/-- The sentence as a record. -/
def inspect (s : Sentence) : String :=
  Text.record "Fragment" [
    ("sentence", s.text.inspect),
    ("payload", Text.record "RawSpan"
      [("start", toString s.payload.start), ("len", toString s.payload.length)]),
    ("fragment_count", toString s.count),
    ("fragment_num", toString s.number),
    ("message_id", Text.optional (s.messageId.map toString)),
    ("channel", Text.optional (s.channel.map toString)),
    ("fill_bits", toString s.fill),
    ("checksum", toString s.checksum)]

end Sentence

end Ais
