import Ais.Pool
import Ais.Queue.Ends

/-!
# Stages

A stage moves batches from one queue to the next.  It never waits: it stops when its sink is full or
its source is dry, and is called again later.  What it cannot go on from is a `Halt`.
-/

namespace Ais

/-- Why a stage broke off. -/
inductive Halt where
  | fault (f : Fault)
  /-- A batch was ready, and the sink had no room for it any more. -/
  | stalled
deriving DecidableEq

namespace Stage

variable {Q : Type} {α β : Type} {n : Nat}

/-- Fails once nothing that is put will ever be taken. -/
def ensureOpen [Sink Q α] (sink : Q) : Except Halt Unit :=
  if Sink.isClosed sink then .error (.fault .queueClosed) else .ok ()

/-- Hands a batch to the sink.  A batch that a closed sink refuses goes back to its pool. -/
def handOver [Sink Q (Buffer α n)] (sink : Q) (pool : Pool α n) (b : Buffer α n) :
    Q × Pool α n × Except Halt Unit :=
  match Sink.send sink b with
  | (sink, .ok ())              => (sink, pool, .ok ())
  | (sink, .error (.closed b))  => (sink, pool.release b, .error (.fault .queueClosed))
  | (sink, .error (.full b))    => (sink, pool.release b, .error .stalled)

end Stage

end Ais
