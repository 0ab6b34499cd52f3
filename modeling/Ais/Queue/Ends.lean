import Ais.Text.Quoted

/-!
# Queue — the two ends

A queue has an end that puts and an end that takes.  Neither waits here: a put that cannot be done
hands its value back and says why, and so does a take that finds nothing.  `Sink` and `Source` are
what the stages know of a queue.
-/

namespace Ais

/-- Why a value was not put; it is handed back. -/
inductive Refusal (α : Type) where
  /-- Every slot is taken. -/
  | full (value : α)
  /-- Nobody will take anything any more. -/
  | closed (value : α)
deriving DecidableEq

namespace Refusal

variable {α : Type}

/-- The value that was not put. -/
def value : Refusal α → α
  | full v   => v
  | closed v => v

/-- Whether a later put may succeed. -/
def isFull : Refusal α → Bool
  | full _   => true
  | closed _ => false

def message : Refusal α → String
  | full _   => "queue full"
  | closed _ => "queue closed"

/-- The refusal as a record that leaves the value out. -/
def inspect : Refusal α → String
  | full _   => Text.wrapped "Full" ".."
  | closed _ => Text.wrapped "Closed" ".."

end Refusal

/-- Why nothing was taken. -/
inductive Dry where
  /-- There is nothing now. -/
  | empty
  /-- Nothing came in time. -/
  | timeout
  /-- There is nothing, and nothing will come. -/
  | closed
deriving DecidableEq

namespace Dry

def message : Dry → String
  | empty   => "queue empty"
  | timeout => "timed out waiting for an item"
  | closed  => "queue closed"

/-- The reason by name. -/
def kind : Dry → String
  | empty   => "Empty"
  | timeout => "Timeout"
  | closed  => "Closed"

end Dry

/-- The end that puts. -/
class Sink (Q : Type) (α : outParam Type) where
  /-- Whether a put would be refused for lack of room. -/
  isFull   : Q → Bool
  /-- Whether no put will ever succeed again. -/
  isClosed : Q → Bool
  send     : Q → α → Q × Except (Refusal α) Unit

/-- The end that takes. -/
class Source (Q : Type) (α : outParam Type) where
  isEmpty  : Q → Bool
  /-- Whether nothing more will be put. -/
  isClosed : Q → Bool
  receive  : Q → Q × Except Dry α

end Ais
