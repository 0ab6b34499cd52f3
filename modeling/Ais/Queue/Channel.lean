import Ais.Queue.Ring

/-!
# Queue — channels

A channel is a ring that joins two stages.  Either side may let go of it.  When the putting side
does, the ring is closed and runs dry.  When the taking side does, the ring is closed as well, and
what is in it stays there for good.
-/

namespace Ais

structure Channel (α : Type) where
  ring      : Ring α
  /-- The taking side has let go. -/
  abandoned : Bool

namespace Channel

variable {α : Type}

/-- An empty channel of `capacity` slots. -/
def create (capacity : Nat) : Except Fault (Channel α) := do
  .ok ⟨← Ring.create capacity, false⟩

/-- How many values are in the channel. -/
def depth (c : Channel α) : Nat := c.ring.size

/-- No value enters any more. -/
def close (c : Channel α) : Channel α := { c with ring := c.ring.close }

/-- The taking side lets go. -/
def abandon (c : Channel α) : Channel α := ⟨c.ring.close, true⟩

def push (c : Channel α) (v : α) : Channel α × Except (Refusal α) Unit :=
  let (ring, r) := c.ring.push v
  ({ c with ring }, r)

def pop (c : Channel α) : Channel α × Except Dry α :=
  if c.abandoned then (c, .error .closed)
  else
    let (ring, r) := c.ring.pop
    ({ c with ring }, r)

instance : Sink (Channel α) α := ⟨(·.ring.isFull), (·.ring.closed), push⟩

instance : Source (Channel α) α := ⟨(·.ring.isEmpty), (·.ring.closed), pop⟩

end Channel

end Ais
