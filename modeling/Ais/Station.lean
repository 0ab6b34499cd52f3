import Ais.Station.Feeder
import Ais.Station.Worker

/-!
# The station

A receiver with a thread for each part: the feeder takes bytes in, one worker assembles messages,
one takes the armour off, and a consumer takes the payloads.  An `Act` is one step of one of them,
and a list of acts is an interleaving.  The feeder marks the input as exhausted before it closes its
end.
-/

namespace Ais

structure Station (n : Nat) extends Receiver n where
  /-- No input will follow. -/
  exhausted : Bool
  /-- Batches that a worker handles in one call of its stage. -/
  budget    : Nat
  feeder    : Feeder n
  joiner    : Worker Sentence Message n
  opener    : Worker Message Payload n
  /-- How many batches the consumer keeps at a time, if there is a limit. -/
  grip      : Option Nat
  /-- The batches the consumer has, the oldest first. -/
  held      : List (Buffer Payload n)
  /-- The payloads of each batch the consumer took, the newest batch first. -/
  received  : List (List Payload)

namespace Station

variable {n : Nat}

/-- A station at rest. -/
def create (n : Nat) (settings : Settings) (grip : Option Nat) : Except Fault (Station n) := do
  settings.validate
  let c := settings.queueCapacity
  let l := settings.poolLimit
  let receiver ← Receiver.create n settings.talkers ⟨c, c, c⟩ ⟨l, l, l⟩
  .ok { receiver with
        exhausted := false
        budget    := settings.batchesPerCall
        feeder    := .idle none
        joiner    := .start
        opener    := .start
        grip
        held      := []
        received  := [] }

/-- One step of one thread.  The feeder begins something new only when it is idle. -/
inductive Act where
  /-- The feeder begins to take bytes in. -/
  | offer (bytes : List UInt8)
  /-- The feeder's next step. -/
  | feed
  /-- The feeder marks the input as exhausted. -/
  | exhaust
  /-- The feeder closes its end. -/
  | closeInput
  /-- Someone closes the channel of payloads. -/
  | closeOutput
  /-- The assembling worker's next step. -/
  | join
  /-- The de-armouring worker's next step. -/
  | dearm
  /-- The consumer takes a batch, if there is one and it may. -/
  | take
  /-- The consumer gives its oldest batch back. -/
  | release

/-- Whether the consumer may take a batch. -/
def hasGrip (s : Station n) : Bool := s.grip.all (s.held.length < ·)

def act (s : Station n) : Act → Station n
  | .offer bytes =>
    if s.feeder.isIdle then { s with feeder := .look bytes.length bytes } else s
  | .feed =>
    let (feeder, i) := s.feeder.step s.intake
    { s with toReceiver := s.setIntake i, feeder }
  | .exhaust     => if s.feeder.isIdle then { s with exhausted := true } else s
  | .closeInput  => if s.feeder.isIdle then { s with sentences := s.sentences.close } else s
  | .closeOutput => { s with payloads := s.payloads.close }
  | .join =>
    let (joiner, r) := s.joiner.step assembling s.budget s.exhausted s.assembler
    { s with toReceiver := s.setAssembler r, joiner }
  | .dearm =>
    let (opener, r) := s.opener.step dearmouring s.budget s.exhausted s.dearmourer
    { s with toReceiver := s.setDearmourer r, opener }
  | .take =>
    if s.hasGrip then
      match s.takePayloads with
      | (r, .error _) => { s with toReceiver := r }
      | (r, .ok b)    =>
        { s with
            toReceiver := r
            held       := s.held ++ [b]
            received   := b.batch.items :: s.received }
    else s
  | .release =>
    match s.held with
    | []      => s
    | b :: bs => { s with toReceiver := s.releasePayloads b, held := bs }

/-- An interleaving. -/
def run (s : Station n) (acts : List Act) : Station n := acts.foldl act s

/-- The station as a record. -/
def inspect (s : Station n) : String :=
  Text.record "Pipeline" [
    ("mode", s.talkers.name),
    ("fragments", s.sentences.ring.inspectSink),
    ("payloads", s.payloads.ring.inspectShared),
    ("workers", "2")]

end Station

end Ais
