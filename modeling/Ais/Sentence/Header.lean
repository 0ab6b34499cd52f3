import Ais.Sentence
import Ais.Talker

/-!
# Sentence — reading a line

A line is read from left to right:

  `talker,count,number,[id],[channel],payload,fill*XX`

with one digit for the count, the number, the id and the fill count, any byte but a comma for the
channel, and two hexadecimal digits at the end, after which at least one byte must follow.  Reading
fails at the first byte that does not fit, and `Scan` keeps count of the bytes passed so that the
fault can say where.  `Header.read` looks at the line alone; `Sentence.parse` puts what it found
into a record.
-/

namespace Ais

/-- The bytes still to be read, and how many have been. -/
structure Scan where
  pos  : Nat
  rest : List UInt8

namespace Scan

/-- One byte, whatever it is. -/
def next (s : Scan) : Except Malformation (UInt8 × Scan) :=
  match s.rest with
  | []     => .error .truncated
  | b :: r => .ok (b, ⟨s.pos + 1, r⟩)

/-- The byte `want`. -/
def expect (want : UInt8) (s : Scan) : Except Malformation Scan := do
  let (b, t) ← s.next
  if b = want then .ok t else .error (.delimiter want s.pos b)

/-- A decimal digit, as its value. -/
def digit (s : Scan) : Except Malformation (UInt8 × Scan) := do
  let (b, t) ← s.next
  match Ascii.digit? b with
  | some d => .ok (d, t)
  | none   => .error (.digit s.pos b)

/-- A field read by `field`, or nothing, and the comma that closes it. -/
def optional (field : Scan → Except Malformation (UInt8 × Scan)) (s : Scan) :
    Except Malformation (Option UInt8 × Scan) := do
  let (b, t) ← s.next
  if b = Ascii.comma then .ok (none, t)
  else
    let (v, t) ← field s
    let t ← t.expect Ascii.comma
    .ok (some v, t)

/-- The bytes that no payload holds. -/
def endsPayload (b : UInt8) : Bool :=
  b == Ascii.comma || b == Ascii.asterisk || Ascii.isLineEnd b

/-- The payload up to its comma, as a span. -/
def payload (s : Scan) : Except Malformation (Span × Scan) :=
  let run := s.rest.takeWhile fun b => !endsPayload b
  match s.rest.drop run.length with
  | b :: r =>
    if b = Ascii.comma then .ok (⟨s.pos, run.length⟩, ⟨s.pos + run.length + 1, r⟩)
    else .error .openPayload
  | [] => .error .openPayload

/-- Two hexadecimal digits.  Both must be there before either is looked at. -/
def hexByte (s : Scan) : Except Malformation (UInt8 × Scan) := do
  let (hi, t) ← s.next
  let (lo, t) ← t.next
  match Ascii.nibble? hi, Ascii.nibble? lo with
  | some h, some l => .ok (h <<< 4 ||| l, t)
  | _, _           => .error .checksumDigits

end Scan

/-- What a line says, and how long it is. -/
structure Header where
  payload   : Span
  count     : UInt8
  number    : UInt8
  messageId : Option UInt8
  channel   : Option UInt8
  fill      : UInt8
  checksum  : UInt8
  size      : Nat
deriving DecidableEq

namespace Header

/-- The talker and sentence name, if it is one that is taken. -/
def talker (talkers : Talkers) (line : List UInt8) : Except Malformation Scan :=
  let name := line.take Talkers.nameBytes
  if name.length < Talkers.nameBytes then .error .shorterThanTalker
  else if talkers.accepts name then .ok ⟨Talkers.nameBytes, line.drop Talkers.nameBytes⟩
  else .error (.talker name)

/-- Count and number: one digit each, neither zero, the number no greater than the count. -/
def numbering (s : Scan) : Except Malformation (UInt8 × UInt8 × Scan) := do
  let (count, s) ← s.digit
  if count = 0 ∨ Limits.sentencesPerMessage < count.toNat then .error (.count count)
  let s ← s.expect Ascii.comma
  let (number, s) ← s.digit
  if number = 0 ∨ count < number then .error (.number number count)
  let s ← s.expect Ascii.comma
  .ok (count, number, s)

/-- The fill count and the checksum after the payload. -/
def closing (s : Scan) : Except Malformation (UInt8 × UInt8 × Scan) := do
  let (fill, s) ← s.digit
  if Limits.fillBits < fill.toNat then .error (.fill fill)
  let s ← s.expect Ascii.asterisk
  let (checksum, s) ← s.hexByte
  .ok (fill, checksum, s)

/-- Reads the line that `line` begins with. -/
def read (talkers : Talkers) (line : List UInt8) : Except Malformation Header := do
  let s ← talker talkers line
  let s ← s.expect Ascii.comma
  let (count, number, s) ← numbering s
  let (messageId, s) ← s.optional Scan.digit
  let (channel, s) ← s.optional Scan.next
  let (payload, s) ← s.payload
  let (fill, checksum, s) ← closing s
  if s.rest.isEmpty then .error .unterminated
  if Limits.sentenceBytes < s.pos then .error (.tooLong s.pos Limits.sentenceBytes)
  .ok { payload, count, number, messageId, channel, fill, checksum, size := s.pos }

end Header

namespace Sentence

/-- Puts a line of `header`, taken from the start of `line`, into the record. -/
def fillFrom (s : Sentence) (header : Header) (line : List UInt8) : Except Fault Sentence := do
  let text ← s.text.clear.append (line.take header.size)
  .ok { text,
        payload   := header.payload
        count     := header.count
        number    := header.number
        messageId := header.messageId
        channel   := header.channel
        fill      := header.fill
        checksum  := header.checksum }

/-- Reads the sentence that `line` begins with into the record, and says how many bytes it has.
A line that is refused leaves the record reset. -/
def parse (talkers : Talkers) (line : List UInt8) (s : Sentence) :
    Sentence × Except Fault Nat :=
  match Header.read talkers line with
  | .error why => (s.reset, .error (.malformed why))
  | .ok header =>
    match s.fillFrom header line with
    | .error f => (s.reset, .error f)
    | .ok s'   => (s', .ok header.size)

/-- The bytes read, or 0 where the line is refused. -/
def parseSize (talkers : Talkers) (line : List UInt8) (s : Sentence) : Sentence × Nat :=
  let (s', r) := s.parse talkers line
  (s', r.toOption.getD 0)

end Sentence

end Ais
