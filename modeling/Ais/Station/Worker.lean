import Ais.Receiver

/-!
# Station — a stage on a thread of its own

A worker calls its stage again and again, and leaves when the input is exhausted, its source closed
and empty, or when the stage fails.  The stage is the one of `Relay.handle`, taken apart: each step
of a worker looks at or changes one thing that other threads may be at as well, or converts one
record.  A worker that leaves closes its sink and abandons its source.
-/

namespace Ais

/-- What a worker does next. -/
inductive Phase (α β : Type) (n : Nat) where
  /-- See whether the sink is open. -/
  | look
  /-- See whether the sink has room. -/
  | room
  | take
  /-- Get a batch for the records to do, from the spare ones.  `full` is one to be handed over. -/
  | borrow (input : Buffer α n) (todo : List α) (full : Option (Buffer β n))
  /-- As `borrow`, when none is spare. -/
  | allocate (input : Buffer α n) (todo : List α) (full : Option (Buffer β n))
  /-- Convert the next record. -/
  | convert (input : Buffer α n) (todo : List α) (out : Buffer β n)
  /-- Hand a batch over, and go on with the next one if there is one. -/
  | send (input : Buffer α n) (todo : List α) (out : Buffer β n) (next : Option (Buffer β n))
  | giveBack (input : Buffer α n)
  /-- See whether the input is exhausted. -/
  | askExhausted
  /-- See whether the source is closed. -/
  | askClosed
  /-- See whether the source is empty. -/
  | askEmpty
  | closeSink (result : Except Fault Unit)
  | abandonSource (result : Except Fault Unit)
  /-- Nothing, for good. -/
  | left (result : Except Fault Unit)

/-- A worker between two links. -/
structure Worker (α β : Type) (n : Nat) where
  phase   : Phase α β n
  /-- Batches handled in this call of the stage. -/
  handled : Nat

namespace Worker

variable {σ α β : Type} {n : Nat}

/-- About to call the stage. -/
def start : Worker α β n := ⟨.look, 0⟩

/-- The call of the stage is over.  One that handled nothing asks whether it was the last. -/
def endCall (w : Worker α β n) : Worker α β n :=
  if 0 < w.handled then start else { w with phase := .askExhausted }

/-- The worker got a batch, for the records to do. -/
def equip (w : Worker α β n) (input : Buffer α n) (todo : List α) (full : Option (Buffer β n))
    (b : Buffer β n) : Worker α β n :=
  match full with
  | none     => { w with phase := .convert input todo b }
  | some out => { w with phase := .send input todo out (some b) }

/-- The stage failed: every batch goes back to its pool. -/
def fail (w : Worker α β n) (r : Section σ α β n) (input : Buffer α n) (out : Option (Buffer β n))
    (f : Fault) : Worker α β n × Section σ α β n :=
  ({ w with phase := .closeSink (.error f) },
   { r with
      inputs  := r.inputs.release input
      outputs := (out.map r.outputs.release).getD r.outputs })

/-- One step. -/
def step [Inhabited β] (c : Conversion σ α β) (budget : Nat) (exhausted : Bool)
    (w : Worker α β n) (r : Section σ α β n) : Worker α β n × Section σ α β n :=
  let go (phase : Phase α β n) : Worker α β n × Section σ α β n := ({ w with phase }, r)
  match w.phase with
  | .look =>
    if budget ≤ w.handled then (w.endCall, r)
    else go (if Sink.isClosed r.sink then .closeSink (.error .queueClosed) else .room)
  | .room => if Sink.isFull r.sink then (w.endCall, r) else go .take
  | .take =>
    match Source.receive r.source with
    | (source, .error _)  => (w.endCall, { r with source })
    | (source, .ok input) =>
      ({ w with phase := .borrow input input.batch.items none }, { r with source })
  | .borrow input todo full =>
    match r.outputs.takeSpare? with
    | none              => go (.allocate input todo full)
    | some (b, outputs) => (w.equip input todo full b, { r with outputs })
  | .allocate input todo full =>
    match r.outputs.allocate with
    | .error f         => w.fail r input full f
    | .ok (b, outputs) => (w.equip input todo full b, { r with outputs })
  | .convert input [] out =>
    if out.batch.isEmpty then
      ({ w with phase := .giveBack input }, { r with outputs := r.outputs.release out })
    else go (.send input [] out none)
  | .convert input (a :: as) out =>
    if out.batch.isFull then go (.borrow input (a :: as) (some out))
    else
      match c.record? r.memory r.tally out.batch a with
      | none                        => go (.convert input [] out)
      | some (memory, tally, batch) =>
        ({ w with phase := .convert input as { out with batch } }, { r with memory, tally })
  | .send input todo out next =>
    match Sink.send r.sink out with
    | (sink, .ok ()) =>
      let phase := match next with
        | none   => .giveBack input
        | some b => .convert input todo b
      ({ w with phase }, { r with sink })
    | (sink, .error (.full out)) =>
      ({ w with phase := .send input todo out next }, { r with sink })
    | (sink, .error (.closed out)) =>
      w.fail { r with sink, outputs := r.outputs.release out } input next .queueClosed
  | .giveBack input =>
    (⟨.look, w.handled + 1⟩, { r with inputs := r.inputs.release input })
  | .askExhausted => if exhausted then go .askClosed else (start, r)
  | .askClosed    => if Source.isClosed r.source then go .askEmpty else (start, r)
  | .askEmpty     => if Source.isEmpty r.source then go (.closeSink (.ok ())) else (start, r)
  | .closeSink result =>
    ({ w with phase := .abandonSource result }, { r with sink := r.sink.close })
  | .abandonSource result =>
    ({ w with phase := .left result }, { r with source := r.source.abandon })
  | .left _ => (w, r)

/-- How the worker left, if it has. -/
def result? (w : Worker α β n) : Option (Except Fault Unit) :=
  match w.phase with
  | .left result => some result
  | _            => none

/-- The worker has left, or a call of its stage would find nothing to do and not be the last. -/
def isResting (exhausted : Bool) (w : Worker α β n) (r : Section σ α β n) : Bool :=
  match w.phase with
  | .left _ => true
  | .look   =>
    w.handled == 0 && !Sink.isClosed r.sink && (Sink.isFull r.sink || Source.isEmpty r.source) &&
      !(exhausted && Source.isClosed r.source && Source.isEmpty r.source)
  | _       => false

end Worker

end Ais
