import Ais.Fault
import Ais.Queue.Ends
import Ais.Settings

/-!
# Queue — the ring

A ring of slots, whose number is a power of two, holds the values between the counters `front` and
`back`, oldest first.  The counters are machine words that only ever count up, and wrap around;
their low bits name the slot.  A closed ring takes no more values, and still gives those it has.
-/

namespace Ais

structure Ring (α : Type) where
  slots  : Array (Option α)
  /-- How many values have been taken. -/
  front  : UInt64
  /-- How many values have been put. -/
  back   : UInt64
  closed : Bool

namespace Ring

variable {α : Type}

/-- An empty ring of `capacity` slots. -/
def create (capacity : Nat) : Except Fault (Ring α) :=
  if isPowerOfTwo capacity then .ok ⟨Array.replicate capacity none, 0, 0, false⟩
  else .error (.settings (.capacity capacity))

def capacity (r : Ring α) : Nat := r.slots.size

/-- How many values are between two readings of the counters. -/
def distance (front back : UInt64) : Nat := (back - front).toNat

def size (r : Ring α) : Nat := distance r.front r.back

def isEmpty (r : Ring α) : Bool := r.size == 0

def isFull (r : Ring α) : Bool := r.capacity ≤ r.size

/-- The slot that a counter names. -/
def index (r : Ring α) (counter : UInt64) : Nat :=
  (counter &&& UInt64.ofNat (r.capacity - 1)).toNat

/-- What the slot of a counter holds. -/
def slot? (r : Ring α) (counter : UInt64) : Option α := (r.slots[r.index counter]?).join

/-- Writes the slot of a counter. -/
def setSlot (r : Ring α) (counter : UInt64) (content : Option α) : Ring α :=
  { r with slots := r.slots.setIfInBounds (r.index counter) content }

/-- A value enters behind the others. -/
def put (r : Ring α) (v : α) : Ring α :=
  { r.setSlot r.back (some v) with back := r.back + 1 }

/-- The oldest value leaves, if there is one. -/
def take (r : Ring α) : Option α × Ring α :=
  if r.front = r.back then (none, r)
  else (r.slot? r.front, { r.setSlot r.front none with front := r.front + 1 })

/-- Puts a value, unless the ring is closed or full. -/
def push (r : Ring α) (v : α) : Ring α × Except (Refusal α) Unit :=
  if r.closed then (r, .error (.closed v))
  else if r.isFull then (r, .error (.full v))
  else (r.put v, .ok ())

/-- Takes the oldest value. -/
def pop (r : Ring α) : Ring α × Except Dry α :=
  match r.take with
  | (some v, taken) => (taken, .ok v)
  | (none, left)    => (left, .error (if r.closed then .closed else .empty))

/-- No value enters any more. -/
def close (r : Ring α) : Ring α := { r with closed := true }

instance : Sink (Ring α) α := ⟨isFull, closed, push⟩

instance : Source (Ring α) α := ⟨isEmpty, closed, pop⟩

/-- The end that puts, as a record. -/
def inspectSink (r : Ring α) : String :=
  Text.record "SpscProducer" [("len", toString r.size), ("capacity", toString r.capacity)]

/-- The end that takes, as a record. -/
def inspectSource (r : Ring α) : String :=
  Text.record "SpscConsumer" [("len", toString r.size), ("capacity", toString r.capacity)]

/-- A ring that threads share, as a record. -/
def inspectShared (r : Ring α) : String :=
  Text.record "BlockingQueue" [
    ("len", toString r.size), ("capacity", toString r.capacity), ("closed", toString r.closed)]

end Ring

end Ais
