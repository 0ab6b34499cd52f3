import Ais.Pool

/-!
# Batches — what is in them

A slot that is claimed and written is one more record behind the others, and one that is given back
is none.  A pool whose spare batches are empty lends empty ones (`Pool.Clean`), and always has one if
it has no limit (`Pool.Ready`).  A limit changes nothing but that there may be no batch to lend
(`Pool.acquire_unlimited`).
-/

namespace Ais

namespace Batch

variable {α : Type} {n : Nat}

theorem isFull_iff {b : Batch α n} : b.isFull = true ↔ b.size = n := by
  have := b.spare_length
  rw [isFull, List.isEmpty_iff, ← List.length_eq_zero_iff]
  omega

/-- No slot is left just in a full batch. -/
theorem claim?_eq_none_iff {b : Batch α n} : b.claim? = none ↔ b.isFull = true := by
  unfold claim? isFull
  split <;> rename_i heq <;> simp [heq]

theorem isEmpty_iff {b : Batch α n} : b.isEmpty = true ↔ b.items = [] := by
  rw [isEmpty, beq_iff_eq, ← b.length_items, List.length_eq_zero_iff]

theorem size_of_items_nil {b : Batch α n} (h : b.items = []) : b.size = 0 := by
  rw [← b.length_items, h, List.length_nil]

/-- A claimed slot that is written holds the next record, and one that is given back holds none. -/
theorem items_of_claim? {b claimed : Batch α n} {old : α} (h : b.claim? = some (old, claimed))
    (a : α) :
    (claimed.setBack a).items = b.items ++ [a] ∧ (claimed.setBack a).dropBack.items = b.items := by
  unfold claim? at h
  split at h
  · cases h
  · cases h
    simp [setBack, dropBack, items]

/-- In any other a slot can be claimed. -/
theorem claim?_of_not_isFull {b : Batch α n} (h : b.isFull = false) :
    ∃ old claimed, b.claim? = some (old, claimed) := by
  unfold claim?
  split
  · rename_i heq
    rw [isFull, heq] at h
    cases h
  · exact ⟨_, _, rfl⟩

end Batch

namespace Pool

variable {α : Type} {n : Nat} {p p' : Pool α n} {b : Buffer α n}

/-- What a pool lends: a spare batch, or else a new one, or else nothing. -/
theorem acquire_cases [Inhabited α] (p : Pool α n) :
    (∃ b bs, p.spare = b :: bs ∧ p.acquire = .ok (b, { p with spare := bs })) ∨
    (p.spare = [] ∧ p.isExhausted = false ∧
      p.acquire = .ok (⟨p.allocated, .empty α n⟩, ⟨[], p.allocated + 1, p.limit⟩)) ∨
    (p.spare = [] ∧ p.isExhausted = true ∧ p.acquire = .error (.poolExhausted p.allocated)) := by
  cases hspare : p.spare with
  | cons b bs => exact .inl ⟨b, bs, rfl, by simp only [Pool.acquire, takeSpare?, hspare]⟩
  | nil =>
      have hacquire : p.acquire = p.allocate := by simp only [Pool.acquire, takeSpare?, hspare]
      rw [hacquire, allocate, hspare]
      cases p.isExhausted with
      | false => exact .inr (.inl ⟨rfl, rfl, rfl⟩)
      | true => exact .inr (.inr ⟨rfl, rfl, rfl⟩)

/-- A pool lends nothing only when all it may have is lent. -/
theorem acquire_error [Inhabited α] {f : Fault} (h : p.acquire = .error f) :
    p.spare = [] ∧ p.isExhausted = true ∧ f = .poolExhausted p.allocated := by
  rcases p.acquire_cases with ⟨_, _, -, hok⟩ | ⟨-, -, hok⟩ | ⟨hspare, hexhausted, herror⟩
  · cases hok.symm.trans h
  · cases hok.symm.trans h
  · cases herror.symm.trans h
    exact ⟨hspare, hexhausted, rfl⟩

/-- Lending does not change the limit. -/
theorem limit_of_acquire [Inhabited α] (h : p.acquire = .ok (b, p')) : p'.limit = p.limit := by
  rcases p.acquire_cases with ⟨_, _, -, hok⟩ | ⟨-, -, hok⟩ | ⟨-, -, herror⟩
  · cases hok.symm.trans h
    rfl
  · cases hok.symm.trans h
    rfl
  · cases herror.symm.trans h

/-! ### Empty batches -/

/-- Nothing is in the spare batches. -/
def Clean (p : Pool α n) : Prop := ∀ b ∈ p.spare, b.batch.items = []

/-- A batch that comes back is empty. -/
theorem Clean.release (h : p.Clean) (b : Buffer α n) : (p.release b).Clean := by
  intro c hc
  rcases List.mem_cons.mp hc with rfl | hc
  · exact Batch.items_clear _
  · exact h c hc

/-- A batch that is lent by a clean pool is empty, and the pool stays clean. -/
theorem Clean.acquire [Inhabited α] (h : p.Clean) (hacquire : p.acquire = .ok (b, p')) :
    b.batch.items = [] ∧ p'.Clean := by
  rcases p.acquire_cases with ⟨c, cs, hspare, hok⟩ | ⟨-, -, hok⟩ | ⟨-, -, herror⟩
  · cases hok.symm.trans hacquire
    rw [Clean, hspare] at h
    exact ⟨h b List.mem_cons_self, fun c hc => h c (List.mem_cons_of_mem b hc)⟩
  · cases hok.symm.trans hacquire
    exact ⟨Batch.items_empty, fun c hc => absurd hc List.not_mem_nil⟩
  · cases herror.symm.trans hacquire

/-- The pool has no limit, and nothing is in its spare batches. -/
structure Ready (p : Pool α n) : Prop where
  limit : p.limit = none
  spare : ∀ b ∈ p.spare, b.batch.items = []

/-- A new pool without a limit is ready. -/
theorem ready_empty : (empty none : Pool α n).Ready := ⟨rfl, fun _ h => absurd h List.not_mem_nil⟩

theorem Ready.clean (h : p.Ready) : p.Clean := h.spare

/-- A batch is lent, and nothing is in it. -/
theorem Ready.acquire [Inhabited α] (h : p.Ready) :
    ∃ b p', p.acquire = .ok (b, p') ∧ b.batch.items = [] ∧ p'.Ready := by
  rcases p.acquire_cases with ⟨b, bs, -, hok⟩ | ⟨-, -, hok⟩ | ⟨-, hexhausted, -⟩
  · obtain ⟨hitems, hclean⟩ := h.clean.acquire hok
    exact ⟨_, _, hok, hitems, h.limit, hclean⟩
  · obtain ⟨hitems, hclean⟩ := h.clean.acquire hok
    exact ⟨_, _, hok, hitems, h.limit, hclean⟩
  · rw [isExhausted, h.limit] at hexhausted
    cases hexhausted

/-- A ready pool stays ready when a batch comes back. -/
theorem Ready.release (h : p.Ready) (b : Buffer α n) : (p.release b).Ready :=
  ⟨h.limit, h.clean.release b⟩

/-! ### Pools with a limit -/

/-- The pool without its limit. -/
def unlimited (p : Pool α n) : Pool α n := { p with limit := none }

theorem Clean.unlimited (h : p.Clean) : p.unlimited.Ready := ⟨rfl, h⟩

/-- What a pool lends it lends without its limit as well. -/
theorem acquire_unlimited [Inhabited α] (h : p.acquire = .ok (b, p')) :
    p.unlimited.acquire = .ok (b, p'.unlimited) := by
  rcases p.acquire_cases with ⟨c, cs, hspare, hok⟩ | ⟨hspare, -, hok⟩ | ⟨-, -, herror⟩
  · cases hok.symm.trans h
    simp only [Pool.acquire, takeSpare?, unlimited, hspare]
  · cases hok.symm.trans h
    simp only [Pool.acquire, takeSpare?, unlimited, hspare, allocate, isExhausted]
    rfl
  · cases herror.symm.trans h

end Pool

/-- The records of batches, one batch after the other. -/
def Buffer.records {α : Type} {n : Nat} (bs : List (Buffer α n)) : List α :=
  bs.flatMap (·.batch.items)

namespace Buffer

variable {α : Type} {n : Nat}

@[simp] theorem records_nil : records ([] : List (Buffer α n)) = [] := rfl

@[simp] theorem records_cons (b : Buffer α n) (bs : List (Buffer α n)) :
    records (b :: bs) = b.batch.items ++ records bs := List.flatMap_cons

@[simp] theorem records_append (bs cs : List (Buffer α n)) :
    records (bs ++ cs) = records bs ++ records cs := List.flatMap_append

end Buffer

end Ais
