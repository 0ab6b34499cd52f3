import Ais.Text.Quoted

/-!
# Batches

A `Batch α n` is `n` records of storage, of which the first `size` are filled.  The storage is a
zipper: `filled` holds the filled records, the newest first, and `spare` the storage behind them,
the next slot first.  A slot is claimed, filled in place, and given back if the filling came to
nothing; what it holds stays there until the slot is claimed again.  A mark says how many of the
first records have been processed.
-/

namespace Ais

structure Batch (α : Type) (n : Nat) where
  filled        : List α
  spare         : List α
  size          : Nat
  /-- The first so many records have been processed. -/
  processed     : Nat
  filled_length : filled.length = size
  spare_length  : size + spare.length = n
  processed_le  : processed ≤ size

namespace Batch

variable {α : Type} {n : Nat}

/-- Nothing filled, in fresh storage. -/
def empty (α : Type) [Inhabited α] (n : Nat) : Batch α n :=
  ⟨[], List.replicate n default, 0, 0, rfl, by simp, Nat.le_refl 0⟩

instance [Inhabited α] : Inhabited (Batch α n) := ⟨empty α n⟩

def isEmpty (b : Batch α n) : Bool := b.size == 0

def isFull (b : Batch α n) : Bool := b.spare.isEmpty

/-- The filled records in order. -/
def items (b : Batch α n) : List α := b.filled.reverse

/-- The newest record. -/
def back? (b : Batch α n) : Option α := b.filled.head?

/-- The records behind the mark. -/
def unprocessed (b : Batch α n) : List α := b.items.drop b.processed

/-- Every record has been processed. -/
def isDrained (b : Batch α n) : Bool := b.size ≤ b.processed

/-- Claims the next slot, if there is one; the newest record is then whatever the slot held. -/
def claim? (b : Batch α n) : Option (α × Batch α n) :=
  match h : b.spare with
  | []        => none
  | a :: rest =>
    some (a, ⟨a :: b.filled, rest, b.size + 1, b.processed,
      by simp [b.filled_length],
      by have := b.spare_length; simp only [h, List.length_cons] at this; omega,
      Nat.le_succ_of_le b.processed_le⟩)

/-- Writes the newest record. -/
def setBack (b : Batch α n) (a : α) : Batch α n :=
  match h : b.filled with
  | []        => b
  | _ :: rest =>
    { b with
        filled        := a :: rest
        filled_length := by have := b.filled_length; simpa [h] using this }

/-- Appends a record, if there is a slot for it. -/
def push? (b : Batch α n) (a : α) : Option (Batch α n) :=
  b.claim?.map fun (_, claimed) => claimed.setBack a

/-- Gives the newest slot back.  It is the next one to be claimed, and what it holds stays. -/
def dropBack (b : Batch α n) : Batch α n :=
  match h : b.filled with
  | []        => b
  | a :: rest =>
    ⟨rest, a :: b.spare, b.size - 1, min b.processed (b.size - 1),
      by have := b.filled_length; simp only [h, List.length_cons] at this; omega,
      by
        have := b.filled_length
        have := b.spare_length
        simp only [h, List.length_cons] at *
        omega,
      Nat.min_le_right _ _⟩

/-- Forgets every record; the storage keeps them. -/
def clear (b : Batch α n) : Batch α n :=
  ⟨[], b.filled.reverseAux b.spare, 0, 0, rfl, by
    have := b.filled_length
    have := b.spare_length
    simp only [List.reverseAux_eq, List.length_append, List.length_reverse]
    omega, Nat.le_refl 0⟩

/-- So many more records have been processed. -/
def mark (b : Batch α n) (more : Nat) : Batch α n :=
  { b with processed := min (b.processed + more) b.size, processed_le := Nat.min_le_right _ _ }

/-- The batch as a record. -/
def inspect (b : Batch α n) : String :=
  Text.record "Chunk" [
    ("len", toString b.size), ("capacity", toString n), ("processed", toString b.processed)]

@[simp] theorem items_empty [Inhabited α] : (empty α n).items = [] := rfl

@[simp] theorem items_clear (b : Batch α n) : b.clear.items = [] := rfl

theorem size_le (b : Batch α n) : b.size ≤ n := by
  have := b.spare_length
  omega

@[simp] theorem length_items (b : Batch α n) : b.items.length = b.size := by
  simp [items, b.filled_length]

end Batch

end Ais
