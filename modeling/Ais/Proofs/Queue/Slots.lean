import Ais.Proofs.Queue.Ring

/-!
# Queue — slot by slot

What lies in every slot of a ring, counted from `front` (`Ring.Stores`): the values in the ring and,
while a put or a take is under way, a value not yet published or a slot already emptied.  A ring
that nobody is at work on keeps a list between its counters and nothing elsewhere (`Ring.Keeps`).
-/

namespace Ais.Ring

variable {α : Type} {r : Ring α}

/-- Counted from `front` the slots hold `cs`, and those behind them nothing. -/
structure Stores (r : Ring α) (cs : List (Option α)) : Prop where
  capacity  : ∃ k < 64, r.capacity = 2 ^ k
  length_le : cs.length ≤ r.capacity
  slot      : ∀ {i}, i < r.capacity → r.slot? (r.front + UInt64.ofNat i) = cs[i]?.join

namespace Stores

variable {c : Option α} {cs : List (Option α)}

theorem congr {s : Ring α} (h : r.Stores cs) (hslots : s.slots = r.slots)
    (hfront : s.front = r.front) : s.Stores cs := by
  obtain ⟨slots, front, back, closed⟩ := s
  obtain rfl : slots = r.slots := hslots
  obtain rfl : front = r.front := hfront
  exact ⟨h.capacity, h.length_le, h.slot⟩

theorem slot_front (h : r.Stores (c :: cs)) : r.slot? r.front = c := by
  simpa using h.slot (i := 0) (capacity_pos h.capacity)

/-- The slot behind the last holds nothing. -/
theorem slot_end (h : r.Stores cs) (room : cs.length < r.capacity) :
    r.slot? (r.front + UInt64.ofNat cs.length) = none := by
  rw [h.slot room, List.getElem?_eq_none (Nat.le_refl _)]
  rfl

/-- One slot is written, and the others stay what they are. -/
theorem setSlot (h : r.Stores cs) {i : Nat} (hi : i < r.capacity) {ds : List (Option α)}
    (hle : ds.length ≤ r.capacity) (hself : ds[i]?.join = c)
    (hothers : ∀ j, j ≠ i → ds[j]?.join = cs[j]?.join) :
    (r.setSlot (r.front + UInt64.ofNat i) c).Stores ds := by
  refine ⟨by rw [capacity_setSlot]; exact h.capacity, by rw [capacity_setSlot]; exact hle, ?_⟩
  intro j hj
  rw [capacity_setSlot] at hj
  show (r.setSlot (r.front + UInt64.ofNat i) c).slot? (r.front + UInt64.ofNat j) = _
  by_cases heq : j = i
  · rw [heq, slot?_setSlot_self h.capacity, hself]
  · have hne := index_ne h.capacity r.front hi hj (Ne.symm heq)
    rw [slot?_setSlot_ne hne, h.slot hj, hothers j heq]

/-- The slot behind the last is filled. -/
theorem append (h : r.Stores cs) (room : cs.length < r.capacity) (c : Option α) :
    (r.setSlot (r.front + UInt64.ofNat cs.length) c).Stores (cs ++ [c]) := by
  refine h.setSlot room (by rw [List.length_append]; exact room) (by simp) ?_
  intro j hj
  rcases Nat.lt_or_gt_of_ne hj with hlt | hgt
  · rw [List.getElem?_append_left hlt]
  · have hlength : (cs ++ [c]).length ≤ j := by rw [List.length_append]; exact hgt
    rw [List.getElem?_eq_none hlength, List.getElem?_eq_none (Nat.le_of_lt hgt)]

/-- The first slot is emptied. -/
theorem clear (h : r.Stores (c :: cs)) : (r.setSlot r.front none).Stores (none :: cs) := by
  rw [show r.front = r.front + UInt64.ofNat 0 by simp]
  refine h.setSlot (i := 0) (capacity_pos h.capacity) h.length_le rfl ?_
  intro j hj
  obtain ⟨j, rfl⟩ := Nat.exists_eq_succ_of_ne_zero hj
  rfl

/-- The first slot is empty, and `front` passes it: counted from there it is the last. -/
theorem advance (h : r.Stores (none :: cs)) : { r with front := r.front + 1 }.Stores cs := by
  have hle := h.length_le
  rw [List.length_cons] at hle
  refine ⟨h.capacity, Nat.le_of_succ_le hle, ?_⟩
  intro i hi
  have hi : i < r.capacity := hi
  have hcounter : r.front + 1 + UInt64.ofNat i = r.front + UInt64.ofNat (i + 1) := by
    rw [UInt64.ofNat_add, UInt64.add_assoc, UInt64.add_comm 1]
    rfl
  show r.slot? (r.front + 1 + UInt64.ofNat i) = _
  rw [hcounter]
  by_cases hlt : i + 1 < r.capacity
  · exact h.slot hlt
  · -- one round further on is the slot that was passed
    have hround : r.index (r.front + UInt64.ofNat (i + 1)) = r.index r.front := by
      rw [index_add h.capacity, index_eq h.capacity, show i + 1 = r.capacity by omega,
        Nat.add_mod_right]
    have hsame : r.slot? (r.front + UInt64.ofNat (i + 1)) = r.slot? r.front := by
      rw [slot?, slot?, hround]
    rw [hsame, h.slot_front, List.getElem?_eq_none (by omega)]
    rfl

end Stores

/-! ### A ring that nobody is at work on -/

variable {as : List α}

/-- Exactly the slots between the counters hold something, and that is `as`, the oldest first. -/
structure Keeps (r : Ring α) (as : List α) : Prop where
  back   : r.back = r.front + UInt64.ofNat as.length
  stores : r.Stores (as.map some)

namespace Keeps

theorem length_le (h : r.Keeps as) : as.length ≤ r.capacity := by
  simpa using h.stores.length_le

theorem holds (h : r.Keeps as) : r.Holds as where
  capacity  := h.stores.capacity
  back      := h.back
  length_le := h.length_le
  slot hi   := by
    have hlt := Nat.lt_of_lt_of_le (List.getElem?_eq_some_iff.mp hi).1 h.length_le
    rw [h.stores.slot hlt, List.getElem?_map, hi]
    rfl

theorem put (h : r.Keeps as) (room : as.length < r.capacity) (v : α) :
    (r.put v).Keeps (as ++ [v]) := by
  have happend := h.stores.append (by simpa using room) (some v)
  rw [List.length_map, ← h.back] at happend
  refine ⟨(h.holds.put room v).back, ?_⟩
  rw [List.map_append]
  exact happend.congr rfl rfl

theorem take {a : α} (h : r.Keeps (a :: as)) :
    ∃ r', r.take = (some a, r') ∧ r'.Keeps as ∧ r'.closed = r.closed ∧
      r'.capacity = r.capacity := by
  obtain ⟨r', htake, hr', hclosed, hcapacity⟩ := h.holds.take
  refine ⟨r', htake, ⟨hr'.back, ?_⟩, hclosed, hcapacity⟩
  have hne : r.front ≠ r.back := fun e => by rw [Ring.take, if_pos e] at htake; cases htake
  rw [Ring.take, if_neg hne] at htake
  obtain rfl := congrArg Prod.snd htake
  exact h.stores.clear.advance

end Keeps

/-- A new ring is empty, every slot of it. -/
theorem keeps_create {capacity : Nat} (hlt : capacity < 2 ^ 64) (h : create capacity = .ok r) :
    r.Keeps [] ∧ r.capacity = capacity ∧ r.closed = false := by
  obtain ⟨hholds, hclosed⟩ := holds_create hlt h
  unfold create at h
  split at h
  · cases h
    refine ⟨⟨hholds.back, hholds.capacity, Nat.zero_le _, ?_⟩, by simp [Ring.capacity], rfl⟩
    intro i _
    rw [slot?, Array.getElem?_replicate]
    split <;> rfl
  · cases h

end Ais.Ring
