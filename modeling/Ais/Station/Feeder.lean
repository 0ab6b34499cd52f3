import Ais.Receiver

/-!
# Station — the feeding side

The thread that takes bytes in, one call of `Intake.ingest` at a time, taken apart as a worker is:
each step looks at or changes one thing that other threads may be at as well, or fills one batch.
-/

namespace Ais

/-- What the feeder does next.  `size` is how many bytes its call began with. -/
inductive Feeder (n : Nat) where
  /-- Nothing; the answer of the last call. -/
  | idle (answer : Option (Except Fault Nat))
  /-- See whether the sink is open. -/
  | look (size : Nat) (bytes : List UInt8)
  /-- See whether the sink has room. -/
  | room (size : Nat) (bytes : List UInt8)
  /-- Get a spare batch. -/
  | borrow (size : Nat) (bytes : List UInt8)
  /-- Get a new batch, when none is spare. -/
  | allocate (size : Nat) (bytes : List UInt8)
  | fill (size : Nat) (bytes : List UInt8) (b : Buffer Sentence n)
  /-- Hand the batch over, and go on unless done. -/
  | send (size : Nat) (bytes : List UInt8) (done : Bool) (b : Buffer Sentence n)
  /-- Count the bytes taken. -/
  | count (size : Nat) (bytes : List UInt8)

namespace Feeder

variable {n : Nat}

/-- After a batch: the rest is looked at unless nothing can be read from it. -/
def proceed (size : Nat) (bytes : List UInt8) (done : Bool) : Feeder n :=
  if done then count size bytes else look size bytes

/-- One step. -/
def step (f : Feeder n) (i : Intake (Link Sentence n) n) : Feeder n × Intake (Link Sentence n) n :=
  match f with
  | idle _ => (f, i)
  | look size bytes =>
    if bytes.isEmpty then (count size bytes, i)
    else if Sink.isClosed i.sink then (idle (some (.error .queueClosed)), i)
    else (room size bytes, i)
  | room size bytes =>
    if Sink.isFull i.sink then (count size bytes, i) else (borrow size bytes, i)
  | borrow size bytes =>
    match i.pool.takeSpare? with
    | none           => (allocate size bytes, i)
    | some (b, pool) => (fill size bytes b, { i with pool })
  | allocate size bytes =>
    match i.pool.allocate with
    | .error f      => (idle (some (.error f)), i)
    | .ok (b, pool) => (fill size bytes b, { i with pool })
  | fill size bytes b =>
    let filled := Intake.fill i.talkers b.batch i.tally bytes
    let b := { b with batch := filled.batch }
    let i := { i with tally := filled.tally }
    if b.batch.isEmpty then
      (proceed size filled.rest filled.done, { i with pool := i.pool.release b })
    else (send size filled.rest filled.done b, i)
  | send size bytes done b =>
    match Sink.send i.sink b with
    | (sink, .ok ())             => (proceed size bytes done, { i with sink })
    | (sink, .error (.full b))   => (send size bytes done b, { i with sink })
    | (sink, .error (.closed b)) =>
      (idle (some (.error .queueClosed)), { i with sink, pool := i.pool.release b })
  | count size bytes =>
    let taken := size - bytes.length
    (idle (some (.ok taken)), { i with tally := i.tally.addBytes taken })

def isIdle : Feeder n → Bool
  | idle _ => true
  | _      => false

/-- What the last call has come to, if it is over. -/
def answer : Feeder n → Except Halt Nat
  | idle (some (.ok taken)) => .ok taken
  | idle (some (.error f))  => .error (.fault f)
  | _                       => .error .stalled

end Feeder

end Ais
