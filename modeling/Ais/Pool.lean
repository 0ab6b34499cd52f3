import Ais.Batch
import Ais.Fault

/-!
# Pools

A pool lends batches and takes them back.  A batch that comes back is cleared and lies on top of the
spare ones, so the last one in is the first one out; a new batch is made only when none is spare,
and only up to the limit, if there is one.  Batches are numbered as they are made.
-/

namespace Ais

/-- A batch of a pool. -/
structure Buffer (α : Type) (n : Nat) where
  /-- How many batches the pool had made before this one. -/
  serial : Nat
  batch  : Batch α n

structure Pool (α : Type) (n : Nat) where
  /-- The batches at hand, the next one first. -/
  spare     : List (Buffer α n)
  /-- How many batches there are, lent or spare. -/
  allocated : Nat
  /-- The most there may be. -/
  limit     : Option Nat

namespace Pool

variable {α : Type} {n : Nat}

/-- No batches yet. -/
def empty (limit : Option Nat) : Pool α n := ⟨[], 0, limit⟩

/-- How many batches are spare. -/
def available (p : Pool α n) : Nat := p.spare.length

/-- Whether the limit allows no further batch. -/
def isExhausted (p : Pool α n) : Bool := p.limit.any (· ≤ p.allocated)

/-- The spare batch that came back last. -/
def takeSpare? (p : Pool α n) : Option (Buffer α n × Pool α n) :=
  match p.spare with
  | []      => none
  | b :: bs => some (b, { p with spare := bs })

/-- A new batch, if the limit allows one. -/
def allocate [Inhabited α] (p : Pool α n) : Except Fault (Buffer α n × Pool α n) :=
  if p.isExhausted then .error (.poolExhausted p.allocated)
  else .ok (⟨p.allocated, .empty α n⟩, { p with allocated := p.allocated + 1 })

/-- Lends a batch: a spare one, or else a new one. -/
def acquire [Inhabited α] (p : Pool α n) : Except Fault (Buffer α n × Pool α n) :=
  match p.takeSpare? with
  | some lent => .ok lent
  | none      => p.allocate

/-- Takes a batch back. -/
def release (p : Pool α n) (b : Buffer α n) : Pool α n :=
  { p with spare := { b with batch := b.batch.clear } :: p.spare }

/-- Makes `count` batches ahead of need, as far as the limit allows. -/
def prefill [Inhabited α] (p : Pool α n) : (count : Nat) → Pool α n × Except Fault Unit
  | 0         => (p, .ok ())
  | count + 1 =>
    match p.allocate with
    | .error f      => (p, .error f)
    | .ok (b, made) => { made with spare := b :: made.spare }.prefill count

end Pool

/-- The batch lent, as a record. -/
def Buffer.inspect {α : Type} {n : Nat} (b : Buffer α n) : String :=
  Text.wrapped "Pooled" b.batch.inspect

end Ais
