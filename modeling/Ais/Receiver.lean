import Ais.Queue.Channel
import Ais.Settings
import Ais.Stage.Intake
import Ais.Stage.Relay

/-!
# The receiver

Three stages between three channels: bytes are taken in and become sentences, sentences become
messages, messages become payloads.  Batches of each kind come from a pool of their own.  Whoever
holds the receiver calls the stages in any order.
-/

namespace Ais

/-- A channel of batches. -/
abbrev Link (α : Type) (n : Nat) := Channel (Buffer α n)

/-- A stage between two such channels. -/
abbrev Section (σ α β : Type) (n : Nat) := Relay (Link α n) (Link β n) σ α β n

structure Receiver (n : Nat) where
  talkers      : Talkers
  sentences    : Link Sentence n
  messages     : Link Message n
  payloads     : Link Payload n
  sentencePool : Pool Sentence n
  messagePool  : Pool Message n
  payloadPool  : Pool Payload n
  assembly     : Assembly
  tally        : Tally

/-- One value for each of the three channels. -/
structure PerChannel (α : Type) where
  sentences : α
  messages  : α
  payloads  : α

namespace Receiver

variable {n : Nat}

/-- A receiver with empty channels of the given capacities, and pools with the given limits. -/
def create (n : Nat) (talkers : Talkers) (capacity : PerChannel Nat)
    (limit : PerChannel (Option Nat)) : Except Fault (Receiver n) := do
  let sentences ← Channel.create capacity.sentences
  let messages  ← Channel.create capacity.messages
  let payloads  ← Channel.create capacity.payloads
  .ok { talkers, sentences, messages, payloads,
        sentencePool := .empty limit.sentences
        messagePool  := .empty limit.messages
        payloadPool  := .empty limit.payloads
        assembly     := .empty
        tally        := .zero }

/-! ### The stages -/

/-- The first stage. -/
def intake (r : Receiver n) : Intake (Link Sentence n) n :=
  ⟨r.talkers, r.sentencePool, r.sentences, r.tally⟩

def setIntake (r : Receiver n) (i : Intake (Link Sentence n) n) : Receiver n :=
  { r with sentencePool := i.pool, sentences := i.sink, tally := i.tally }

/-- The second stage. -/
def assembler (r : Receiver n) : Section Assembly Sentence Message n :=
  ⟨r.sentences, r.sentencePool, r.messages, r.messagePool, r.assembly, r.tally⟩

def setAssembler (r : Receiver n) (s : Section Assembly Sentence Message n) : Receiver n :=
  { r with
      sentences    := s.source
      sentencePool := s.inputs
      messages     := s.sink
      messagePool  := s.outputs
      assembly     := s.memory
      tally        := s.tally }

/-- The third stage. -/
def dearmourer (r : Receiver n) : Section Unit Message Payload n :=
  ⟨r.messages, r.messagePool, r.payloads, r.payloadPool, (), r.tally⟩

def setDearmourer (r : Receiver n) (s : Section Unit Message Payload n) : Receiver n :=
  { r with
      messages    := s.source
      messagePool := s.inputs
      payloads    := s.sink
      payloadPool := s.outputs
      tally       := s.tally }

/-! ### Calls -/

/-- Takes bytes in, and says how many. -/
def ingest (r : Receiver n) (bytes : List UInt8) : Receiver n × Except Halt Nat :=
  let (i, taken) := r.intake.ingest bytes
  (r.setIntake i, taken)

/-- Assembles at most `budget` batches of sentences. -/
def assemble (r : Receiver n) (budget : Nat) : Receiver n × Except Halt Nat :=
  let (s, handled) := r.assembler.handle assembling budget
  (r.setAssembler s, handled)

/-- Takes the armour off at most `budget` batches of messages. -/
def dearmour (r : Receiver n) (budget : Nat) : Receiver n × Except Halt Nat :=
  let (s, handled) := r.dearmourer.handle dearmouring budget
  (r.setDearmourer s, handled)

/-- Takes a batch of payloads; it is to be released when done with. -/
def takePayloads (r : Receiver n) : Receiver n × Except Dry (Buffer Payload n) :=
  let (payloads, b) := r.payloads.pop
  ({ r with payloads }, b)

def releasePayloads (r : Receiver n) (b : Buffer Payload n) : Receiver n :=
  { r with payloadPool := r.payloadPool.release b }

/-- Takes a batch of messages out of the middle. -/
def popMessages (r : Receiver n) : Receiver n × Except Dry (List Message) :=
  match r.messages.pop with
  | (messages, .error dry) => ({ r with messages }, .error dry)
  | (messages, .ok b)      =>
    ({ r with messages, messagePool := r.messagePool.release b }, .ok b.batch.items)

/-- Takes a batch of sentences out of the middle. -/
def popSentences (r : Receiver n) : Receiver n × Except Dry (List Sentence) :=
  match r.sentences.pop with
  | (sentences, .error dry) => ({ r with sentences }, .error dry)
  | (sentences, .ok b)      =>
    ({ r with sentences, sentencePool := r.sentencePool.release b }, .ok b.batch.items)

end Receiver

end Ais
