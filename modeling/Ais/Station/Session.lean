import Ais.Stage.Inlet
import Ais.Station

/-!
# Station — a session

What the owner of a station does with it: take bytes in, wait, finish.  Between two calls every
thread runs until it rests, each making one step in turn, so that a session has one outcome.
-/

namespace Ais

namespace Station

variable {n : Nat}

/-- The consumer has nothing to take and nothing to give back.  One without a limit keeps all. -/
def consumerRests (s : Station n) : Bool :=
  !(s.hasGrip && 0 < s.payloads.depth) && (s.grip.isNone || s.held.isEmpty)

/-- No thread but the feeder has anything to do. -/
def isQuiet (s : Station n) : Bool :=
  s.joiner.isResting s.exhausted s.assembler && s.opener.isResting s.exhausted s.dearmourer &&
    s.consumerRests

/-- One step of each thread but the feeder. -/
def round (s : Station n) : Station n :=
  s.run ([.join, .dearm, .take] ++ if s.grip.isSome then [.release] else [])

/-- The threads step in turn until none has anything to do, for at most `fuel` rounds. -/
def settleFor (s : Station n) : (fuel : Nat) → Station n
  | 0        => s
  | fuel + 1 => if s.isQuiet then s else s.round.settleFor fuel

/-- Enough rounds: a batch passes two workers, which take a step for each record and a few more, and
of eight steps of a worker at least one gets it on. -/
def rounds (s : Station n) : Nat :=
  16 * (s.sentences.depth + s.messages.depth + s.payloads.depth + 4) * (n + 16)

/-- The threads run until they rest. -/
def settle (s : Station n) : Station n := s.settleFor s.rounds

/-- The feeder runs to the end of its call, for at most `fuel` steps. -/
def feedFor (s : Station n) : (fuel : Nat) → Station n
  | 0        => s
  | fuel + 1 => if s.feeder.isIdle then s else (s.act .feed).feedFor fuel

/-- One call of the feeder: what there is room for is taken in.  Each batch takes a byte at least,
and eight steps at most. -/
def ingest (s : Station n) (bytes : List UInt8) : Station n × Except Halt Nat :=
  let s := (s.act (.offer bytes)).feedFor (8 * (bytes.length + 2))
  (s, s.feeder.answer)

instance : Inlet (Station n) where
  offer       := ingest
  isFull s    := Sink.isFull s.sentences
  isClosed s  := Sink.isClosed s.sentences
  await       := settle
  countLine s := { s with tally := s.tally.addMalformed }

/-- How the workers left: the first failure, but a queue found closed only if there is no other. -/
def outcome (s : Station n) : Except Halt Unit :=
  match s.joiner.result?, s.opener.result? with
  | some first, some second =>
    let worst := match first, second with
      | .ok _, second                           => second
      | .error .queueClosed, .error f           => .error f
      | .error f, _                             => .error f
    worst.mapError .fault
  | _, _                    => .error .stalled

/-- Exhausts the input and waits for the workers to leave. -/
def finish (s : Station n) : Station n × Except Halt Tally :=
  let s := (s.run [.exhaust, .closeInput]).settle
  (s, s.outcome.map fun _ => s.tally)

/-- Gives the station up, whatever is still in it. -/
def discard (s : Station n) : Station n := (s.run [.closeOutput, .exhaust, .closeInput]).settle

end Station

end Ais
