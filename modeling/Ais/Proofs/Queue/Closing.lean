import Ais.Proofs.Queue.Ring

/-!
# Queue — channels that are let go of

The ring of a channel is a list also when it has been closed or abandoned (`Channel.IsList`).  A put
is refused, or there is one value more behind the others (`Gains`); a take finds nothing, or the
oldest value is gone (`Loses`).  Neither opens what has been closed.
-/

namespace Ais.Channel

variable {α : Type} {c c' : Channel α} {v : α}

/-- The ring of the channel is a list, whether it is open or not. -/
def IsList (c : Channel α) : Prop := c.ring.Holds c.contents

/-- A channel whose ring holds a list is that list. -/
theorem isList_of_holds {as : List α} (h : c.ring.Holds as) : c.IsList ∧ c.contents = as :=
  ⟨by rw [IsList, contents, h.contents_eq]; exact h, h.contents_eq⟩

theorem IsOpen.isList (h : c.IsOpen) : c.IsList := h.holds

/-- A channel that is closed keeps what is in it. -/
theorem IsList.close (h : c.IsList) : c.close.IsList := by
  have hring : c.close.ring.Holds c.contents := ⟨h.1, h.2, h.3, h.4⟩
  exact (isList_of_holds hring).1

theorem IsList.abandon (h : c.IsList) : c.abandon.IsList := h.close

/-- `c'` is `c` with one value more, behind the others. -/
structure Gains (c : Channel α) (v : α) (c' : Channel α) : Prop where
  isList    : c'.IsList
  contents  : c'.contents = c.contents ++ [v]
  capacity  : c'.ring.capacity = c.ring.capacity
  closed    : c'.ring.closed = c.ring.closed
  abandoned : c'.abandoned = c.abandoned

/-- `c'` is `c` without its oldest value. -/
structure Loses (c : Channel α) (v : α) (c' : Channel α) : Prop where
  isList    : c'.IsList
  contents  : c.contents = v :: c'.contents
  capacity  : c'.ring.capacity = c.ring.capacity
  closed    : c'.ring.closed = c.ring.closed
  abandoned : c'.abandoned = c.abandoned

/-- Nothing is in the channel, it has so many slots, and neither side has let go. -/
structure Fresh (c : Channel α) (capacity : Nat) : Prop where
  isList    : c.IsList
  contents  : c.contents = []
  capacity  : c.ring.capacity = capacity
  closed    : c.ring.closed = false
  abandoned : c.abandoned = false

/-- A channel is made empty and open, for any power of two. -/
theorem fresh_create {capacity : Nat} (h : isPowerOfTwo capacity = true) (hlt : capacity < 2 ^ 64) :
    ∃ c : Channel α, create capacity = .ok c ∧ c.Fresh capacity := by
  obtain ⟨c, hcreate, hopen, hcontents⟩ := create_ok (α := α) h hlt
  refine ⟨c, hcreate, hopen.isList, hcontents, ?_, hopen.closed, hopen.abandoned⟩
  rw [create, Ring.create, if_pos h] at hcreate
  cases hcreate
  exact Array.size_replicate

theorem IsList.isEmpty_iff (h : c.IsList) : c.ring.isEmpty = true ↔ c.contents = [] :=
  Ring.Holds.isEmpty_iff h

theorem IsList.length_lt (h : c.IsList) (room : c.ring.isFull = false) :
    c.contents.length < c.ring.capacity :=
  Nat.lt_of_le_of_ne h.length_le fun e => by rw [h.isFull_iff.mpr e] at room; cases room

/-! ### A put -/

/-- A closed channel hands a value back. -/
theorem push_of_closed (h : c.ring.closed = true) (v : α) :
    c.push v = (c, .error (.closed v)) := by
  rw [push, Ring.push, if_pos h]

/-- So does a full one. -/
theorem push_of_full (hopen : c.ring.closed = false) (h : c.ring.isFull = true) (v : α) :
    c.push v = (c, .error (.full v)) := by
  rw [push, Ring.push, if_neg (by simp [hopen]), if_pos h]

/-- One that is open and has room takes it. -/
theorem IsList.push_of_room (h : c.IsList) (hopen : c.ring.closed = false)
    (room : c.ring.isFull = false) (v : α) : ∃ c', c.push v = (c', .ok ()) ∧ c.Gains v c' := by
  obtain ⟨hpush, hput⟩ := Ring.Holds.push h hopen room v
  obtain ⟨hlist, hcontents⟩ := isList_of_holds (c := { c with ring := c.ring.put v }) hput
  exact ⟨_, by rw [push, hpush], hlist, hcontents, Ring.capacity_put _ _, rfl, rfl⟩

/-- A put is refused by a closed channel and by a full one, and is done otherwise. -/
theorem IsList.push_cases (h : c.IsList) (v : α) :
    (c.ring.closed = true ∧ c.push v = (c, .error (.closed v))) ∨
    (c.ring.closed = false ∧ c.push v = (c, .error (.full v))) ∨
    ∃ c', c.push v = (c', .ok ()) ∧ c.ring.closed = false ∧ c.Gains v c' := by
  cases hclosed : c.ring.closed with
  | true => exact .inl ⟨rfl, push_of_closed hclosed v⟩
  | false =>
      cases hfull : c.ring.isFull with
      | true => exact .inr (.inl ⟨rfl, push_of_full hclosed hfull v⟩)
      | false =>
          obtain ⟨c', hpush, hgains⟩ := h.push_of_room hclosed hfull v
          exact .inr (.inr ⟨c', hpush, rfl, hgains⟩)

/-! ### A take -/

/-- From an abandoned channel nothing more is taken. -/
theorem pop_of_abandoned (h : c.abandoned = true) : c.pop = (c, .error .closed) := by
  rw [pop, if_pos h]

/-- From an empty one neither, and it is said whether more may come. -/
theorem IsList.pop_of_nil (h : c.IsList) (hkept : c.abandoned = false) (hnil : c.contents = []) :
    c.pop = (c, .error (if c.ring.closed then .closed else .empty)) := by
  rw [IsList, hnil] at h
  rw [pop, if_neg (by simp [hkept]), Ring.pop, h.take_nil]

/-- From any other the oldest value is taken. -/
theorem IsList.pop_of_cons (h : c.IsList) (hkept : c.abandoned = false) {vs : List α}
    (hcons : c.contents = v :: vs) : ∃ c', c.pop = (c', .ok v) ∧ c.Loses v c' := by
  rw [IsList, hcons] at h
  obtain ⟨r, htake, hr, hclosed, hcapacity⟩ := h.take
  obtain ⟨hlist, hcontents⟩ := isList_of_holds (c := { c with ring := r }) hr
  refine ⟨{ c with ring := r }, ?_, hlist, by rw [hcontents, hcons], hcapacity, hclosed, rfl⟩
  rw [pop, if_neg (by simp [hkept]), Ring.pop, htake]

/-- A take finds nothing in an abandoned channel and in an empty one, and else the oldest value. -/
theorem IsList.pop_cases (h : c.IsList) :
    (∃ dry, c.pop = (c, .error dry) ∧ (c.abandoned = true ∨ c.contents = [] ∧
      (dry = .closed → c.ring.closed = true))) ∨
    ∃ v c', c.pop = (c', .ok v) ∧ c.Loses v c' := by
  cases habandoned : c.abandoned with
  | true => exact .inl ⟨_, pop_of_abandoned habandoned, .inl rfl⟩
  | false =>
      cases hcontents : c.contents with
      | nil =>
          refine .inl ⟨_, h.pop_of_nil habandoned hcontents, .inr ⟨rfl, fun hdry => ?_⟩⟩
          by_contra hopen
          rw [if_neg hopen] at hdry
          cases hdry
      | cons v vs =>
          obtain ⟨c', hpop, hloses⟩ := h.pop_of_cons habandoned hcontents
          exact .inr ⟨v, c', hpop, hloses⟩

end Ais.Channel
