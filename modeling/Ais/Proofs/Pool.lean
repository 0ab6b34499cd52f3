import Ais.Proofs.Batch

/-!
# Pools — lending in two steps

A thread that needs a batch looks for a spare one first, and has a new one made when there is none;
in between, others may be at the pool.  What each of the two steps changes.
-/

namespace Ais.Pool

variable {α : Type} {n : Nat} {p p' : Pool α n} {b : Buffer α n}

/-- A spare batch that is lent is no longer spare. -/
theorem takeSpare?_some (h : p.takeSpare? = some (b, p')) :
    p.spare = b :: p'.spare ∧ p'.allocated = p.allocated ∧ p'.limit = p.limit := by
  unfold takeSpare? at h
  split at h
  case h_1 => cases h
  case h_2 hspare =>
    cases h
    exact ⟨hspare, rfl, rfl⟩

theorem takeSpare?_none (h : p.takeSpare? = none) : p.spare = [] := by
  unfold takeSpare? at h
  split at h
  case h_1 hspare => exact hspare
  case h_2 => cases h

/-- A new batch is empty, and there is one more. -/
theorem allocate_ok [Inhabited α] (h : p.allocate = .ok (b, p')) :
    b.batch.items = [] ∧ p'.spare = p.spare ∧ p'.allocated = p.allocated + 1 ∧
      p'.limit = p.limit := by
  unfold allocate at h
  split at h
  case isTrue => cases h
  case isFalse =>
    cases h
    exact ⟨Batch.items_empty, rfl, rfl, rfl⟩

theorem allocate_error [Inhabited α] {f : Fault} (h : p.allocate = .error f) :
    f = .poolExhausted p.allocated := by
  unfold allocate at h
  split at h
  case isTrue =>
    cases h
    rfl
  case isFalse => cases h

theorem Clean.takeSpare? (h : p.Clean) (hlent : p.takeSpare? = some (b, p')) :
    b.batch.items = [] ∧ p'.Clean := by
  obtain ⟨hspare, -, -⟩ := takeSpare?_some hlent
  rw [Clean, hspare] at h
  exact ⟨h b List.mem_cons_self, fun c hc => h c (List.mem_cons_of_mem b hc)⟩

theorem Clean.allocate [Inhabited α] (h : p.Clean) (hmade : p.allocate = .ok (b, p')) :
    b.batch.items = [] ∧ p'.Clean := by
  obtain ⟨hitems, hspare, -, -⟩ := allocate_ok hmade
  exact ⟨hitems, fun c hc => h c (hspare ▸ hc)⟩

end Ais.Pool
