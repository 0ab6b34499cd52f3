import Ais.Bytes.Ascii
import Ais.Sentence

/-!
# Messages

A message is what its sentences say together: their text, one line after another, and the armoured
payload they carry, joined in order.  It has the channel of its first sentence and the fill count of
its last.  The record is filled in place, and a fill that fails leaves what it had done so far.
-/

namespace Ais

structure Message where
  sentences : FixedText Limits.messageBytes
  payload   : FixedText Limits.armouredChars
  channel   : Option UInt8
  fill      : UInt8
deriving DecidableEq

namespace Message

/-- No message, in storage that is all zero. -/
def empty : Message := ⟨.empty _, .empty _, none, 0⟩

instance : Inhabited Message := ⟨empty⟩

/-- The message of one sentence. -/
def ofSingle (m : Message) (s : Sentence) : Message × Except Fault Unit :=
  match m.sentences.assign s.text.bytes with
  | (sentences, .error f) => ({ m with sentences }, .error f)
  | (sentences, .ok ())   =>
    match m.payload.assign s.payloadBytes with
    | (payload, .error f) => ({ m with sentences, payload }, .error f)
    | (payload, .ok ())   => (⟨sentences, payload, s.channel, s.fill⟩, .ok ())

/-- Appends one sentence, after `separator`. -/
def appendSentence (m : Message) (separator : List UInt8) (s : Sentence) :
    Message × Except Fault Unit :=
  match m.sentences.append separator with
  | .error f      => (m, .error f)
  | .ok separated =>
    match separated.append s.text.bytes with
    | .error f      => ({ m with sentences := separated }, .error f)
    | .ok sentences =>
      match m.payload.append s.payloadBytes with
      | .error f    => ({ m with sentences }, .error f)
      | .ok payload => ({ m with sentences, payload }, .ok ())

/-- Appends the sentences in order, each but the first on a line of its own. -/
def appendAll (m : Message) (separator : List UInt8) : List Sentence → Message × Except Fault Unit
  | []      => (m, .ok ())
  | s :: ss =>
    match m.appendSentence separator s with
    | (m', .error f) => (m', .error f)
    | (m', .ok ())   => m'.appendAll [Ascii.lineFeed] ss

/-- The message of several sentences. -/
def ofSentences (m : Message) (ss : List Sentence) : Message × Except Fault Unit :=
  match { m with sentences := m.sentences.clear, payload := m.payload.clear }.appendAll [] ss with
  | (m', .error f) => (m', .error f)
  | (m', .ok ())   =>
    ({ m' with
        channel := ss.head?.bind (·.channel)
        fill    := (ss.getLast?.map (·.fill)).getD 0 }, .ok ())

end Message

end Ais
