import Ais.Assembly
import Ais.Payload.Packing
import Ais.Stage
import Ais.Tally

/-!
# Stage — from records to records

The two stages behind the intake take batches of one kind and give batches of another: sentences
become messages, messages become payloads.  A `Conversion` says what becomes of one record, and a
`Relay` is the place between two queues where batches are converted.  A batch once taken is
converted whole: its records go into a batch of the output pool, and should that fill up, into a
second.
-/

namespace Ais

/-- What became of one record. -/
structure Converted (σ β : Type) where
  memory : σ
  tally  : Tally
  /-- The slot of the output, filled or not. -/
  slot   : β
  /-- Whether there is a record in the slot. -/
  kept   : Bool

/-- How records of one kind become records of another.  The stage may remember something from one
record to the next. -/
abbrev Conversion (σ α β : Type) := σ → Tally → β → α → Converted σ β

/-- Sentences become messages. -/
def assembling : Conversion Assembly Sentence Message := fun assembly tally slot s =>
  let (memory, slot, outcome) := assembly.process slot s
  let tally := match outcome with
    | .complete          => tally.addMessage
    | .pending           => tally
    | .badChecksum       => tally.addChecksumFailure
    | .discarded dropped => tally.addDiscarded dropped
  ⟨memory, tally, slot, outcome.isComplete⟩

/-- Messages become payloads, those without bits excepted. -/
def dearmouring : Conversion Unit Message Payload := fun _ tally slot m =>
  let (slot, bits) := slot.ofMessage m
  if bits = 0 then ⟨(), tally.addEmptyPayload, slot, false⟩
  else ⟨(), tally.addPayload, slot, true⟩

/-- One record goes into a batch, if the batch has a slot for it. -/
def Conversion.record? {σ α β : Type} {n : Nat} (c : Conversion σ α β) (memory : σ) (tally : Tally)
    (out : Batch β n) (a : α) : Option (σ × Tally × Batch β n) :=
  out.claim?.map fun (slot, claimed) =>
    let done    := c memory tally slot a
    let written := claimed.setBack done.slot
    (done.memory, done.tally, if done.kept then written else written.dropBack)

/-- A stage between two queues, with the pools of the batches in them. -/
structure Relay (S K σ α β : Type) (n : Nat) where
  source  : S
  inputs  : Pool α n
  sink    : K
  outputs : Pool β n
  memory  : σ
  tally   : Tally

namespace Relay

variable {S K σ α β : Type} {n : Nat} [Inhabited β] [Sink K (Buffer β n)]

/-- Hands the full batch over and takes another. -/
def swap (r : Relay S K σ α β n) (full : Buffer β n) :
    Relay S K σ α β n × Except Halt (Buffer β n) :=
  match r.outputs.acquire with
  | .error f            => ({ r with outputs := r.outputs.release full }, .error (.fault f))
  | .ok (next, outputs) =>
    match Stage.handOver r.sink outputs full with
    | (sink, outputs, .ok ())       => ({ r with sink, outputs }, .ok next)
    | (sink, outputs, .error stop)  =>
      ({ r with sink, outputs := outputs.release next }, .error stop)

/-- The records go into the batch, and what comes out is the batch not yet handed over. -/
def convert (c : Conversion σ α β) (r : Relay S K σ α β n) (out : Buffer β n) :
    List α → Relay S K σ α β n × Except Halt (Buffer β n)
  | []      => (r, .ok out)
  | a :: as =>
    match if out.batch.isFull then r.swap out else (r, .ok out) with
    | (r, .error stop) => (r, .error stop)
    | (r, .ok out)     =>
      match c.record? r.memory r.tally out.batch a with
      | none                        => (r, .ok out)
      | some (memory, tally, batch) => convert c { r with memory, tally } { out with batch } as

/-- Hands the last batch over, unless nothing is in it. -/
def deliver (r : Relay S K σ α β n) (out : Buffer β n) : Relay S K σ α β n × Except Halt Unit :=
  if out.batch.isEmpty then ({ r with outputs := r.outputs.release out }, .ok ())
  else
    let (sink, outputs, sent) := Stage.handOver r.sink r.outputs out
    ({ r with sink, outputs }, sent)

/-- Converts one batch.  The batch goes back to its pool, whatever happens. -/
def handleOne (c : Conversion σ α β) (r : Relay S K σ α β n) (input : Buffer α n) :
    Relay S K σ α β n × Except Halt Unit :=
  let (r, done) : Relay S K σ α β n × Except Halt Unit :=
    match r.outputs.acquire with
    | .error f           => (r, .error (.fault f))
    | .ok (out, outputs) =>
      match convert c { r with outputs } out input.batch.items with
      | (r, .error stop) => (r, .error stop)
      | (r, .ok out)     => r.deliver out
  ({ r with inputs := r.inputs.release input }, done)

variable [Source S (Buffer α n)]

/-- Converts at most `budget` batches while there are any and the sink has room, and says how many
it converted. -/
def handle (c : Conversion σ α β) (r : Relay S K σ α β n) :
    (budget : Nat) → Relay S K σ α β n × Except Halt Nat
  | 0          => (r, .ok 0)
  | budget + 1 =>
    match Stage.ensureOpen r.sink with
    | .error stop => (r, .error stop)
    | .ok ()      =>
      if Sink.isFull r.sink then (r, .ok 0)
      else
        match Source.receive r.source with
        | (source, .error _)  => ({ r with source }, .ok 0)
        | (source, .ok input) =>
          match handleOne c { r with source } input with
          | (r, .error stop) => (r, .error stop)
          | (r, .ok ())      =>
            let (r, handled) := handle c r budget
            (r, handled.map (· + 1))

end Relay

end Ais
