import Mathlib.Data.Nat.ModEq
import Ais.Proofs.Queue.Ends
import Ais.Queue.Channel

/-!
# Queue — a ring is a list

The ring between its counters is a list, oldest first (`Ring.Holds`): what is pushed goes to the end
of it, and what is popped comes from its front.  The counters may wrap around, and the values may
lie across the end of the storage: all that counts is that no two counters of the list name the same
slot (`index_ne`), since there are no more of them than slots and their number is a power of two.
-/

namespace Ais

namespace Ring

variable {α : Type}

/-- The values between the counters are `as`, oldest first. -/
structure Holds (r : Ring α) (as : List α) : Prop where
  capacity  : ∃ k < 64, r.capacity = 2 ^ k
  back      : r.back = r.front + UInt64.ofNat as.length
  length_le : as.length ≤ r.capacity
  slot      : ∀ {i a}, as[i]? = some a → r.slot? (r.front + UInt64.ofNat i) = some a

/-! ### Slots -/

variable {r : Ring α}

/-- The low bits of a counter name its slot. -/
theorem index_eq (h : ∃ k < 64, r.capacity = 2 ^ k) (counter : UInt64) :
    r.index counter = counter.toNat % r.capacity := by
  obtain ⟨k, hk, hcapacity⟩ := h
  have hlt : 2 ^ k - 1 < 2 ^ 64 := by
    have := Nat.pow_lt_pow_right (a := 2) (by decide) hk
    omega
  rw [index, hcapacity, UInt64.toNat_and, UInt64.toNat_ofNat', Nat.mod_eq_of_lt hlt,
    Nat.and_two_pow_sub_one_eq_mod]

theorem capacity_pos (h : ∃ k < 64, r.capacity = 2 ^ k) : 0 < r.capacity := by
  obtain ⟨k, -, hcapacity⟩ := h
  exact hcapacity ▸ Nat.two_pow_pos k

theorem index_lt (h : ∃ k < 64, r.capacity = 2 ^ k) (counter : UInt64) :
    r.index counter < r.slots.size := by
  rw [index_eq h]
  exact Nat.mod_lt _ (capacity_pos h)

/-- Counting up goes round the slots, also where the counter wraps. -/
theorem index_add (h : ∃ k < 64, r.capacity = 2 ^ k) (counter : UInt64) (i : Nat) :
    r.index (counter + UInt64.ofNat i) = (counter.toNat + i) % r.capacity := by
  have hdvd : r.capacity ∣ 2 ^ 64 := by
    obtain ⟨k, hk, hcapacity⟩ := h
    exact hcapacity ▸ Nat.pow_dvd_pow 2 (Nat.le_of_lt hk)
  rw [index_eq h, UInt64.toNat_add, UInt64.toNat_ofNat', Nat.add_mod_mod,
    Nat.mod_mod_of_dvd _ hdvd]

/-- **Counters less than a round apart name different slots.** -/
theorem index_ne (h : ∃ k < 64, r.capacity = 2 ^ k) (counter : UInt64) {i j : Nat}
    (hi : i < r.capacity) (hj : j < r.capacity) (hne : i ≠ j) :
    r.index (counter + UInt64.ofNat i) ≠ r.index (counter + UInt64.ofNat j) := by
  rw [index_add h, index_add h]
  intro heq
  have hmod : i ≡ j [MOD r.capacity] := Nat.ModEq.add_left_cancel' counter.toNat heq
  exact hne (Nat.ModEq.eq_of_lt_of_lt hmod hi hj)

@[simp] theorem capacity_setSlot (r : Ring α) (counter : UInt64) (content : Option α) :
    (r.setSlot counter content).capacity = r.capacity := Array.size_setIfInBounds

theorem slot?_setSlot_self (h : ∃ k < 64, r.capacity = 2 ^ k) (counter : UInt64)
    (content : Option α) : (r.setSlot counter content).slot? counter = content := by
  have hlt := index_lt h counter
  rw [slot?, index, capacity_setSlot, ← index, setSlot, Array.getElem?_setIfInBounds_self_of_lt hlt]
  rfl

theorem slot?_setSlot_ne {counter other : UInt64} (hne : r.index counter ≠ r.index other)
    (content : Option α) : (r.setSlot counter content).slot? other = r.slot? other := by
  rw [slot?, index, capacity_setSlot, ← index, setSlot, Array.getElem?_setIfInBounds_ne hne]
  rfl

/-! ### Sizes -/

variable {as : List α}

theorem Holds.size_eq (h : r.Holds as) : r.size = as.length := by
  obtain ⟨k, hk, hcapacity⟩ := h.capacity
  have hle := h.length_le
  have hlt : 2 ^ k < 2 ^ 64 := Nat.pow_lt_pow_right (by decide) hk
  rw [size, distance, h.back, UInt64.add_comm, UInt64.add_sub_cancel, UInt64.toNat_ofNat',
    Nat.mod_eq_of_lt (by omega)]

theorem Holds.isEmpty_iff (h : r.Holds as) : r.isEmpty = true ↔ as = [] := by
  rw [isEmpty, beq_iff_eq, h.size_eq, List.length_eq_zero_iff]

theorem Holds.isFull_iff (h : r.Holds as) : r.isFull = true ↔ as.length = r.capacity := by
  have := h.length_le
  rw [isFull, h.size_eq, decide_eq_true_iff]
  omega

/-- A new ring is empty. -/
theorem holds_create {capacity : Nat} (hlt : capacity < 2 ^ 64) (h : create capacity = .ok r) :
    r.Holds [] ∧ r.closed = false := by
  unfold create at h
  split at h
  · rename_i hpower
    cases h
    simp only [isPowerOfTwo, Bool.and_eq_true, bne_iff_ne, beq_iff_eq] at hpower
    obtain ⟨k, rfl⟩ := Nat.ne_zero_and_sub_one_eq_zero_iff_isPowerOfTwo.mp hpower
    refine ⟨⟨⟨k, ?_, by simp [Ring.capacity]⟩, by simp, by simp, by simp⟩, rfl⟩
    exact (Nat.pow_lt_pow_iff_right (by decide)).mp hlt
  · cases h

/-! ### Pushing and popping -/

@[simp] theorem capacity_put (r : Ring α) (v : α) : (r.put v).capacity = r.capacity :=
  capacity_setSlot r r.back (some v)

/-- What is pushed goes to the end. -/
theorem Holds.put (h : r.Holds as) (room : as.length < r.capacity) (v : α) :
    (r.put v).Holds (as ++ [v]) := by
  refine ⟨?_, ?_, ?_, ?_⟩
  · rw [capacity_put]
    exact h.capacity
  · simp [Ring.put, setSlot, h.back, UInt64.ofNat_add, UInt64.add_assoc]
  · rw [capacity_put, List.length_append, List.length_singleton]
    exact room
  · intro i a hi
    have hslot : ∀ counter, (r.put v).slot? counter = (r.setSlot r.back (some v)).slot? counter :=
      fun _ => rfl
    rw [hslot, show (r.put v).front = r.front from rfl]
    by_cases hlt : i < as.length
    · -- there is room, so the slot of an older value is not the one that is written
      rw [List.getElem?_append_left hlt] at hi
      have hne := index_ne h.capacity r.front (i := as.length) (j := i) room (by omega) (by omega)
      rw [← h.back] at hne
      rw [slot?_setSlot_ne hne, h.slot hi]
    · have hlength := (List.getElem?_eq_some_iff.mp hi).1
      rw [List.length_append, List.length_singleton] at hlength
      obtain rfl : i = as.length := by omega
      obtain rfl : v = a := by simpa using hi
      rw [← h.back, slot?_setSlot_self h.capacity]

/-- What comes out is the oldest. -/
theorem Holds.take {a : α} (h : r.Holds (a :: as)) :
    ∃ r', r.take = (some a, r') ∧ r'.Holds as ∧ r'.closed = r.closed ∧
      r'.capacity = r.capacity := by
  have hfirst : r.slot? r.front = some a := by simpa using h.slot (i := 0) (a := a) rfl
  have hne : r.front ≠ r.back := fun e => by
    have := h.size_eq
    rw [size, distance, e, UInt64.sub_self] at this
    cases this
  have hle := h.length_le
  have hcapacity : ({ r.setSlot r.front none with front := r.front + 1 } : Ring α).capacity =
      r.capacity := capacity_setSlot r r.front none
  rw [List.length_cons] at hle
  refine ⟨{ r.setSlot r.front none with front := r.front + 1 }, ?_, ⟨?_, ?_, ?_, ?_⟩, rfl,
    hcapacity⟩
  · rw [Ring.take, if_neg hne, hfirst]
  · rw [hcapacity]
    exact h.capacity
  · simp only [setSlot]
    rw [h.back, List.length_cons, UInt64.ofNat_add, UInt64.add_assoc, UInt64.add_comm 1]
    rfl
  · rw [hcapacity]
    omega
  · -- the value was one place further, and its slot is not the one that is emptied
    intro i b hi
    have hlength := (List.getElem?_eq_some_iff.mp hi).1
    have hslot := h.slot (i := i + 1) (a := b) hi
    have hne' := index_ne h.capacity r.front (i := 0) (j := i + 1) (by omega) (by omega) (by omega)
    have hcounter : r.front + UInt64.ofNat (i + 1) = r.front + 1 + UInt64.ofNat i := by
      rw [UInt64.ofNat_add, UInt64.add_assoc, UInt64.add_comm 1]
      rfl
    rw [hcounter] at hslot hne'
    rw [show r.front + UInt64.ofNat 0 = r.front by simp] at hne'
    exact (slot?_setSlot_ne hne' none).trans hslot

/-- An empty ring gives nothing. -/
theorem Holds.take_nil (h : r.Holds []) : r.take = (none, r) := by
  have : r.front = r.back := by simpa using h.back.symm
  rw [Ring.take, if_pos this]

/-- An open ring takes what it has room for. -/
theorem Holds.push (h : r.Holds as) (hopen : r.closed = false) (room : r.isFull = false) (v : α) :
    r.push v = (r.put v, .ok ()) ∧ (r.put v).Holds (as ++ [v]) := by
  have hlt : as.length < r.capacity :=
    Nat.lt_of_le_of_ne h.length_le fun e => by rw [h.isFull_iff.mpr e] at room; cases room
  refine ⟨?_, h.put hlt v⟩
  rw [Ring.push, hopen, room]
  rfl

theorem Holds.pop {a : α} (h : r.Holds (a :: as)) :
    ∃ r', r.pop = (r', .ok a) ∧ r'.Holds as ∧ r'.closed = r.closed := by
  obtain ⟨r', htake, hr', hclosed, -⟩ := h.take
  exact ⟨r', by rw [Ring.pop, htake], hr', hclosed⟩

theorem Holds.pop_nil (h : r.Holds []) : ∃ dry, r.pop = (r, .error dry) :=
  ⟨_, by rw [Ring.pop, h.take_nil]⟩

/-- The values between the counters. -/
def contents (r : Ring α) : List α :=
  (List.range r.size).filterMap fun i => r.slot? (r.front + UInt64.ofNat i)

theorem Holds.contents_eq (h : r.Holds as) : r.contents = as := by
  have hslots : (List.range as.length).map (fun i => r.slot? (r.front + UInt64.ofNat i)) =
      as.map some := by
    apply List.ext_getElem (by simp)
    intro i h₁ h₂
    rw [List.getElem_map, List.getElem_range, List.getElem_map]
    exact h.slot (List.getElem?_eq_getElem _)
  have hfilter : r.contents = ((List.range as.length).map
      fun i => r.slot? (r.front + UInt64.ofNat i)).filterMap id := by
    rw [contents, h.size_eq, List.filterMap_map]
    rfl
  rw [hfilter, hslots, List.filterMap_map]
  simp

end Ring

/-! ### Channels -/

namespace Channel

variable {α : Type}

/-- The values in the channel. -/
def contents (c : Channel α) : List α := c.ring.contents

/-- Neither side has let go of the channel, and its ring is a list. -/
structure IsOpen (c : Channel α) : Prop where
  holds     : c.ring.Holds c.contents
  closed    : c.ring.closed = false
  abandoned : c.abandoned = false

theorem isOpen_of_holds {c : Channel α} {as : List α} (h : c.ring.Holds as)
    (hclosed : c.ring.closed = false) (habandoned : c.abandoned = false) :
    c.IsOpen ∧ c.contents = as :=
  ⟨⟨by rw [contents, h.contents_eq]; exact h, hclosed, habandoned⟩, h.contents_eq⟩

/-- A channel can be made for every power of two, and nothing is in it. -/
theorem create_ok {capacity : Nat} (h : isPowerOfTwo capacity = true) (hlt : capacity < 2 ^ 64) :
    ∃ c : Channel α, create capacity = .ok c ∧ c.IsOpen ∧ c.contents = [] := by
  have hring : Ring.create capacity =
      .ok (⟨Array.replicate capacity none, 0, 0, false⟩ : Ring α) := by
    rw [Ring.create, if_pos h]
  obtain ⟨hholds, hclosed⟩ := Ring.holds_create hlt hring
  obtain ⟨hopen, hcontents⟩ := isOpen_of_holds (c := ⟨_, false⟩) hholds hclosed rfl
  exact ⟨_, by rw [create, hring]; rfl, hopen, hcontents⟩

/-- An open channel keeps what it takes. -/
theorem keeps : Sink.Keeps (IsOpen (α := α)) contents where
  isClosed h := h.closed
  send {c} h room v := by
    obtain ⟨hpush, hput⟩ := h.holds.push h.closed room v
    obtain ⟨hopen, hcontents⟩ :=
      isOpen_of_holds (c := { c with ring := c.ring.put v }) hput h.closed h.abandoned
    refine ⟨{ c with ring := c.ring.put v }, ?_, hopen, hcontents⟩
    show c.push v = _
    rw [push, hpush]

theorem IsOpen.pop {c : Channel α} (h : c.IsOpen) {a : α} {as : List α}
    (hcontents : c.contents = a :: as) :
    ∃ c', c.pop = (c', .ok a) ∧ c'.IsOpen ∧ c'.contents = as := by
  have hholds := h.holds
  rw [hcontents] at hholds
  obtain ⟨r, hpop, hr, hclosed⟩ := hholds.pop
  obtain ⟨hopen, hcontents'⟩ :=
    isOpen_of_holds (c := { c with ring := r }) hr (hclosed.trans h.closed) h.abandoned
  refine ⟨{ c with ring := r }, ?_, hopen, hcontents'⟩
  rw [Channel.pop, h.abandoned, hpop]
  rfl

/-- An empty channel gives nothing, and stays as it is. -/
theorem IsOpen.pop_nil {c : Channel α} (h : c.IsOpen) (hcontents : c.contents = []) :
    ∃ dry, c.pop = (c, .error dry) := by
  have hholds := h.holds
  rw [hcontents] at hholds
  obtain ⟨dry, hpop⟩ := hholds.pop_nil
  refine ⟨dry, ?_⟩
  rw [Channel.pop, if_neg (by simp [h.abandoned]), hpop]

theorem gives : Source.Gives (IsOpen (α := α)) contents :=
  ⟨fun h hcontents => h.pop hcontents, fun h hcontents => h.pop_nil hcontents⟩

theorem IsOpen.isEmpty_iff {c : Channel α} (h : c.IsOpen) :
    c.ring.isEmpty = true ↔ c.contents = [] := h.holds.isEmpty_iff

/-- An empty channel has room. -/
theorem IsOpen.isFull_of_nil {c : Channel α} (h : c.IsOpen) (hcontents : c.contents = []) :
    c.ring.isFull = false := by
  have hpos := Ring.capacity_pos h.holds.capacity
  rw [Bool.eq_false_iff]
  intro hfull
  have := h.holds.isFull_iff.mp hfull
  rw [hcontents, List.length_nil] at this
  omega

end Channel

end Ais
