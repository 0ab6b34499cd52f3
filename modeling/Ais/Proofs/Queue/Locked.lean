import Ais.Proofs.Queue.Slots
import Ais.Queue.Locked

/-!
# Queue — any number of threads, one history

What the threads of a crew do under the lock happens one after the other, and so has a history: a
list of deeds, each with the answer that its thread got (`Crew.log`).  From the history alone follow
the values that wait and whether the ring is closed (`Crew.Sound`), and each answer is the one that a
bounded queue gives after the deeds before it (`Deed.Fits`, `Crew.turns_isFifo`).  A thread that waits
changes nothing and has no deed, however often it looks.

* `Deed.Does`, `Thread.step?_does`: what one step under the lock does to the ring.
* `Crew.Sound.does`, `Crew.Sound.run`: every deed keeps the ring what its history says.
* `Thread.waits`: who waits has nothing to put into or nothing to take out.
-/

namespace Ais

variable {α : Type}

/-- What a thread did under the lock, and what it was answered.  `waits` says that it would have
waited. -/
inductive Deed (α : Type) where
  | put (waits : Bool) (value : α) (answer : Except (Refusal α) Unit)
  | take (waits : Bool) (answer : Except Dry α)
  | close

namespace Deed

/-- The value that has been put. -/
def put? : Deed α → Option α
  | put _ v (.ok ()) => some v
  | _                => none

/-- The value that has been taken. -/
def taken? : Deed α → Option α
  | take _ (.ok v) => some v
  | _              => none

/-- The values put, in order. -/
def puts (log : List (Deed α)) : List α := log.filterMap put?

/-- The values taken, in order. -/
def takes (log : List (Deed α)) : List α := log.filterMap taken?

/-- The values put and not taken, in order. -/
def queued (log : List (Deed α)) : List α := (puts log).drop (takes log).length

/-- The answer is that of a queue of `capacity` values after the deeds `before`. -/
def Fits (capacity : Nat) (before : List (Deed α)) : Deed α → Prop
  | put _ _ (.ok ())                  => .close ∉ before ∧ (queued before).length < capacity
  | put waits v (.error (.full u))    =>
    u = v ∧ waits = false ∧ .close ∉ before ∧ (queued before).length = capacity
  | put _ v (.error (.closed u))      => u = v ∧ .close ∈ before
  | take _ (.ok v)                    => (queued before).head? = some v
  | take waits (.error .empty)        => waits = false ∧ .close ∉ before ∧ queued before = []
  | take waits (.error .timeout)      => waits = true ∧ .close ∉ before ∧ queued before = []
  | take _ (.error .closed)           => .close ∈ before ∧ queued before = []
  | close                             => True

/-- What a deed does to the ring, and in which ring it can be done. -/
inductive Does (r : Ring α) : Deed α → Ring α → Prop where
  | puts (waits : Bool) (v : α) (hopen : r.closed = false) (room : r.isFull = false) :
      Does r (put waits v (.ok ())) (r.put v)
  | full (v : α) (hopen : r.closed = false) (hfull : r.isFull = true) :
      Does r (put false v (.error (.full v))) r
  | late (waits : Bool) (v : α) (hc : r.closed = true) :
      Does r (put waits v (.error (.closed v))) r
  | takes {r' : Ring α} (waits : Bool) {v : α} (ht : r.take = (some v, r')) :
      Does r (take waits (.ok v)) r'
  | empty {r' : Ring α} (ht : r.take = (none, r')) (hopen : r.closed = false) :
      Does r (take false (.error .empty)) r'
  | expired {r' : Ring α} (ht : r.take = (none, r')) (hopen : r.closed = false) :
      Does r (take true (.error .timeout)) r'
  | drained {r' : Ring α} (waits : Bool) (ht : r.take = (none, r')) (hc : r.closed = true) :
      Does r (take waits (.error .closed)) r'
  | closes : Does r close r.close

end Deed

/-! ### One step under the lock -/

namespace Ring

variable {r r' : Ring α} {v : α}

theorem push_does {answer : Except (Refusal α) Unit} (h : r.push v = (r', answer)) :
    Deed.Does r (.put false v answer) r' := by
  cases hc : r.closed with
  | true =>
      rw [push, if_pos hc] at h
      cases h
      exact .late false v hc
  | false =>
      rw [push, if_neg (by simp [hc])] at h
      cases hfull : r.isFull with
      | true =>
          rw [if_pos hfull] at h
          cases h
          exact .full v hc hfull
      | false =>
          rw [if_neg (by simp [hfull])] at h
          cases h
          exact .puts false v hc hfull

theorem pushNow?_does {answer : Except (Refusal α) Unit} (h : r.pushNow? v = some (r', answer)) :
    Deed.Does r (.put true v answer) r' := by
  cases hc : r.closed with
  | true =>
      rw [pushNow?, if_neg (by simp [hc]), if_pos hc] at h
      cases h
      exact .late true v hc
  | false =>
      cases hfull : r.isFull with
      | true => simp [pushNow?, hc, hfull] at h
      | false =>
          rw [pushNow?, if_neg (by simp [hfull]), if_neg (by simp [hc])] at h
          cases h
          exact .puts true v hc hfull

theorem pop_does {answer : Except Dry α} (h : r.pop = (r', answer)) :
    Deed.Does r (.take false answer) r' := by
  obtain ⟨value, left, ht⟩ : ∃ value left, r.take = (value, left) := ⟨_, _, rfl⟩
  cases value with
  | some v =>
      simp only [pop, ht] at h
      cases h
      exact .takes false ht
  | none =>
      cases hc : r.closed with
      | true =>
          simp only [pop, ht, hc, if_true] at h
          cases h
          exact .drained false ht hc
      | false =>
          simp only [pop, ht, hc, Bool.false_eq_true, if_false] at h
          cases h
          exact .empty ht hc

theorem popNow?_does {expired : Bool} {answer : Except Dry α}
    (h : r.popNow? expired = some (r', answer)) : Deed.Does r (.take true answer) r' := by
  obtain ⟨value, left, ht⟩ : ∃ value left, r.take = (value, left) := ⟨_, _, rfl⟩
  cases value with
  | some v =>
      simp only [popNow?, ht] at h
      cases h
      exact .takes true ht
  | none =>
      cases hc : r.closed with
      | true =>
          simp only [popNow?, ht, hc, if_true] at h
          cases h
          exact .drained true ht hc
      | false =>
          cases expired with
          | true =>
              simp only [popNow?, ht, hc, Bool.false_eq_true, if_false, if_true] at h
              cases h
              exact .expired ht hc
          | false => simp [popNow?, ht, hc] at h

/-- Who waits to put finds no room, in an open ring. -/
theorem pushNow?_none (h : r.pushNow? v = none) : r.isFull = true ∧ r.closed = false := by
  by_cases hwait : (r.isFull && !r.closed) = true
  · simpa using hwait
  · rw [pushNow?, if_neg hwait] at h
    split at h <;> cases h

/-- Who waits to take finds nothing, in an open ring, and has time. -/
theorem popNow?_none {expired : Bool} (h : r.popNow? expired = none) :
    (∃ left, r.take = (none, left)) ∧ r.closed = false ∧ expired = false := by
  obtain ⟨value, left, ht⟩ : ∃ value left, r.take = (value, left) := ⟨_, _, rfl⟩
  cases value with
  | some v => simp [popNow?, ht] at h
  | none =>
      simp only [popNow?, ht] at h
      cases hc : r.closed with
      | true => simp [hc] at h
      | false =>
          cases expired with
          | true => simp [hc] at h
          | false => exact ⟨⟨left, ht⟩, rfl, rfl⟩

end Ring

namespace Thread

variable {t t' : Thread α} {r r' : Ring α}

/-- What a thread has done between two steps of it: its errand and its newest answer. -/
def deed? (before after : Thread α) : Option (Deed α) :=
  match before.errands with
  | []                  => none
  | .push v :: _        => after.pushes.head?.map (.put true v)
  | .tryPush v :: _     => after.pushes.head?.map (.put false v)
  | .pop :: _           => after.pops.head?.map (.take true)
  | .tryPop :: _        => after.pops.head?.map (.take false)
  | .drain :: _         => after.pops.head?.map (.take true)
  | .close :: _         => some .close

/-- A step is one deed. -/
theorem step?_does {expired : Bool} (h : t.step? r expired = some (t', r')) :
    ∃ deed, t.deed? t' = some deed ∧ Deed.Does r deed r' := by
  obtain ⟨errands, pushes, pops⟩ := t
  cases errands with
  | nil => cases h
  | cons errand rest =>
      cases errand with
      | push v =>
          obtain ⟨⟨left, answer⟩, hpush, heq⟩ := Option.map_eq_some_iff.mp h
          cases heq
          exact ⟨_, rfl, Ring.pushNow?_does hpush⟩
      | tryPush v =>
          cases h
          exact ⟨_, rfl, Ring.push_does rfl⟩
      | pop =>
          obtain ⟨⟨left, answer⟩, hpop, heq⟩ := Option.map_eq_some_iff.mp h
          cases heq
          exact ⟨_, rfl, Ring.popNow?_does hpop⟩
      | tryPop =>
          cases h
          exact ⟨_, rfl, Ring.pop_does rfl⟩
      | drain =>
          obtain ⟨⟨left, answer⟩, hpop, heq⟩ := Option.map_eq_some_iff.mp h
          cases heq
          exact ⟨_, rfl, Ring.popNow?_does hpop⟩
      | close =>
          cases h
          exact ⟨_, rfl, .closes⟩

end Thread

/-! ### A history -/

namespace Deed

variable {log : List (Deed α)} {deed : Deed α} {waiting : List α}

theorem puts_append (log : List (Deed α)) (deed : Deed α) :
    puts (log ++ [deed]) = puts log ++ deed.put?.toList := by
  rw [puts, List.filterMap_append]
  cases h : deed.put? <;> simp [puts, h]

theorem takes_append (log : List (Deed α)) (deed : Deed α) :
    takes (log ++ [deed]) = takes log ++ deed.taken?.toList := by
  rw [takes, List.filterMap_append]
  cases h : deed.taken? <;> simp [takes, h]

theorem queued_eq (h : puts log = takes log ++ waiting) : queued log = waiting := by
  rw [queued, h, List.drop_left]

end Deed

namespace Crew

/-- What a turn does. -/
def deed? (c : Crew α) (t : Turn) : Option (Deed α) := do
  let before ← c.threads[t.thread]?
  let (after, _) ← before.step? c.ring t.expired
  before.deed? after

/-- The history of an interleaving: what was done in it, in order. -/
def log (c : Crew α) : List Turn → List (Deed α)
  | []         => []
  | t :: turns => (c.deed? t).toList ++ ((c.turn? t).getD c).log turns

/-- The ring is what its history says, and every answer was the right one. -/
structure Sound (capacity : Nat) (r : Ring α) (log : List (Deed α)) : Prop where
  slots  : r.capacity = capacity
  keeps  : r.Keeps (Deed.queued log)
  order  : Deed.puts log = Deed.takes log ++ Deed.queued log
  closed : r.closed = true ↔ .close ∈ log
  deeds  : ∀ {before deed}, before ++ [deed] <+: log → deed.Fits capacity before

namespace Sound

variable {capacity : Nat} {r r' : Ring α} {log : List (Deed α)} {deed : Deed α} {waiting : List α}

/-- One more deed that fits. -/
theorem extend (h : Sound capacity r log) (hfits : deed.Fits capacity log)
    (hcapacity : r'.capacity = r.capacity) (hkeeps : r'.Keeps waiting)
    (horder : Deed.puts log ++ deed.put?.toList = Deed.takes log ++ deed.taken?.toList ++ waiting)
    (hclosed : r'.closed = true ↔ .close ∈ log ++ [deed]) : Sound capacity r' (log ++ [deed]) := by
  rw [← Deed.puts_append, ← Deed.takes_append] at horder
  obtain rfl : Deed.queued (log ++ [deed]) = waiting := Deed.queued_eq horder
  refine ⟨hcapacity.trans h.slots, hkeeps, horder, hclosed, fun {before last} hprefix => ?_⟩
  rcases List.prefix_concat_iff.mp hprefix with heq | hprefix
  · obtain ⟨rfl, hlast⟩ := List.append_inj' heq rfl
    cases hlast
    exact hfits
  · exact h.deeds hprefix

/-- One more deed that leaves the ring as it is. -/
theorem idle (h : Sound capacity r log) (hfits : deed.Fits capacity log)
    (hput : deed.put? = none) (htaken : deed.taken? = none) (hclose : deed ≠ .close) :
    Sound capacity r (log ++ [deed]) := by
  refine h.extend hfits rfl h.keeps ?_ ?_
  · simpa [hput, htaken] using h.order
  · simpa [Ne.symm hclose] using h.closed

theorem isFull_iff (h : Sound capacity r log) :
    r.isFull = true ↔ (Deed.queued log).length = capacity := by
  rw [h.keeps.holds.isFull_iff, h.slots]

theorem length_lt (h : Sound capacity r log) (room : r.isFull = false) :
    (Deed.queued log).length < capacity := by
  refine Nat.lt_of_le_of_ne (h.slots ▸ h.keeps.length_le) fun hfull => ?_
  rw [h.isFull_iff.mpr hfull] at room
  cases room

theorem not_mem (h : Sound capacity r log) (hopen : r.closed = false) : Deed.close ∉ log :=
  fun hmem => Bool.false_ne_true (hopen.symm.trans (h.closed.mpr hmem))

/-- The ring gives what has waited longest. -/
theorem head_eq (h : Sound capacity r log) {v : α} (ht : r.take = (some v, r')) :
    ∃ rest, Deed.queued log = v :: rest ∧ r'.Keeps rest ∧ r'.closed = r.closed ∧
      r'.capacity = r.capacity := by
  have hkeeps := h.keeps
  cases hqueued : Deed.queued log with
  | nil =>
      rw [hqueued] at hkeeps
      rw [hkeeps.holds.take_nil] at ht
      cases ht
  | cons u rest =>
      rw [hqueued] at hkeeps
      obtain ⟨s, htake, hrest⟩ := hkeeps.take
      rw [htake] at ht
      cases ht
      exact ⟨rest, rfl, hrest⟩

/-- The ring gives nothing when nothing waits. -/
theorem queued_nil (h : Sound capacity r log) (ht : r.take = (none, r')) :
    Deed.queued log = [] ∧ r' = r := by
  have hkeeps := h.keeps
  cases hqueued : Deed.queued log with
  | nil =>
      rw [hqueued] at hkeeps
      rw [hkeeps.holds.take_nil] at ht
      cases ht
      exact ⟨rfl, rfl⟩
  | cons u rest =>
      rw [hqueued] at hkeeps
      obtain ⟨s, htake, -⟩ := hkeeps.take
      rw [htake] at ht
      cases ht

/-- **Every deed keeps the ring what its history says.** -/
theorem does (h : Sound capacity r log) (hdoes : deed.Does r r') :
    Sound capacity r' (log ++ [deed]) := by
  cases hdoes with
  | puts waits v hopen room =>
      have hlt := h.length_lt room
      refine h.extend ⟨h.not_mem hopen, hlt⟩ (Ring.capacity_put r v)
        (h.keeps.put (h.slots ▸ hlt) v) ?_ ?_
      · simp [Deed.put?, Deed.taken?, h.order]
      · simpa [Ring.put, Ring.setSlot] using h.closed
  | full v hopen hfull =>
      have hlength := h.isFull_iff.mp hfull
      exact h.idle ⟨rfl, rfl, h.not_mem hopen, hlength⟩ rfl rfl (by simp)
  | late waits v hc => exact h.idle ⟨rfl, h.closed.mp hc⟩ rfl rfl (by simp)
  | takes waits ht =>
      obtain ⟨rest, hqueued, hkeeps, hclosed, hcapacity⟩ := h.head_eq ht
      refine h.extend (by simp [Deed.Fits, hqueued]) hcapacity hkeeps ?_ ?_
      · simp [Deed.put?, Deed.taken?, h.order, hqueued]
      · simpa [hclosed] using h.closed
  | empty ht hopen =>
      obtain ⟨hqueued, rfl⟩ := h.queued_nil ht
      exact h.idle ⟨rfl, h.not_mem hopen, hqueued⟩ rfl rfl (by simp)
  | expired ht hopen =>
      obtain ⟨hqueued, rfl⟩ := h.queued_nil ht
      exact h.idle ⟨rfl, h.not_mem hopen, hqueued⟩ rfl rfl (by simp)
  | drained waits ht hc =>
      obtain ⟨hqueued, rfl⟩ := h.queued_nil ht
      exact h.idle ⟨h.closed.mp hc, hqueued⟩ rfl rfl (by simp)
  | closes =>
      refine h.extend trivial rfl ⟨h.keeps.back, h.keeps.stores.congr rfl rfl⟩ ?_ ?_
      · simpa [Deed.put?, Deed.taken?] using h.order
      · simp [Ring.close]

end Sound

variable {capacity : Nat} {c c' : Crew α} {log : List (Deed α)}

/-- A turn is one deed. -/
theorem turn?_does {t : Turn} (h : c.turn? t = some c') :
    ∃ deed, c.deed? t = some deed ∧ deed.Does c.ring c'.ring := by
  obtain ⟨before, hthread, hrest⟩ := Option.bind_eq_some_iff.mp h
  obtain ⟨⟨after, ring⟩, hstep, heq⟩ := Option.bind_eq_some_iff.mp hrest
  cases heq
  obtain ⟨deed, hdeed, hdoes⟩ := Thread.step?_does hstep
  refine ⟨deed, ?_, hdoes⟩
  simp [deed?, hthread, hstep, hdeed]

/-- A thread that cannot go on does nothing. -/
theorem deed?_none {t : Turn} (h : c.turn? t = none) : c.deed? t = none := by
  cases hthread : c.threads[t.thread]? with
  | none => simp [deed?, hthread]
  | some before =>
      cases hstep : before.step? c.ring t.expired with
      | none => simp [deed?, hthread, hstep]
      | some after => simp [turn?, hthread, hstep] at h

theorem run_cons (c : Crew α) (t : Turn) (turns : List Turn) :
    c.run (t :: turns) = ((c.turn? t).getD c).run turns := rfl

theorem Sound.run (h : Sound capacity c.ring log) (turns : List Turn) :
    Sound capacity (c.run turns).ring (log ++ c.log turns) := by
  induction turns generalizing c log with
  | nil =>
      rw [Crew.log, List.append_nil]
      exact h
  | cons t turns ih =>
      cases hturn : c.turn? t with
      | none =>
          rw [run_cons, Crew.log, hturn, deed?_none hturn]
          exact ih h
      | some c' =>
          obtain ⟨deed, hdeed, hdoes⟩ := turn?_does hturn
          have hrun := ih (h.does hdoes)
          rw [List.append_assoc] at hrun
          rw [run_cons, Crew.log, hturn, hdeed]
          exact hrun

/-! ### A bounded queue -/

/-- A ring of `capacity` slots is a bounded queue, as all threads of a crew see it. -/
structure IsFifo (capacity : Nat) (c : Crew α) (log : List (Deed α)) : Prop where
  /-- Exactly the slots between the counters hold something, and it is what was put and not taken. -/
  keeps   : c.ring.Keeps (Deed.queued log)
  /-- The counters are at most `capacity` apart. -/
  bounded : c.ring.size ≤ capacity
  /-- What was taken is what was put first, each value once. -/
  order   : Deed.puts log = Deed.takes log ++ Deed.queued log
  closed  : c.ring.closed = true ↔ .close ∈ log
  /-- Each answer is that of a bounded queue after what was done before. -/
  deeds   : ∀ {before deed}, before ++ [deed] <+: log → deed.Fits capacity before
  /-- A thread that cannot go on is done, or waits in an open ring: for room in a full one, or, with
  time left, for a value in an empty one. -/
  waits   : ∀ {t expired}, t ∈ c.threads → t.step? c.ring expired = none → t.errands = [] ∨
    .close ∉ log ∧
      ((∃ v rest, t.errands = .push v :: rest ∧ (Deed.queued log).length = capacity) ∨
        ∃ rest, (t.errands = .pop :: rest ∨ t.errands = .drain :: rest) ∧ expired = false ∧
          Deed.queued log = [])

/-- Only who would have to wait cannot go on. -/
theorem Sound.waits (h : Sound capacity c.ring log) {t : Thread α} {expired : Bool}
    (hstep : t.step? c.ring expired = none) : t.errands = [] ∨
    .close ∉ log ∧
      ((∃ v rest, t.errands = .push v :: rest ∧ (Deed.queued log).length = capacity) ∨
        ∃ rest, (t.errands = .pop :: rest ∨ t.errands = .drain :: rest) ∧ expired = false ∧
          Deed.queued log = []) := by
  obtain ⟨errands, pushes, pops⟩ := t
  cases errands with
  | nil => exact .inl rfl
  | cons errand rest =>
      right
      cases errand with
      | push v =>
          obtain ⟨hfull, hopen⟩ := Ring.pushNow?_none (Option.map_eq_none_iff.mp hstep)
          exact ⟨h.not_mem hopen, .inl ⟨v, rest, rfl, h.isFull_iff.mp hfull⟩⟩
      | pop =>
          obtain ⟨⟨left, ht⟩, hopen, hexpired⟩ :=
            Ring.popNow?_none (Option.map_eq_none_iff.mp hstep)
          exact ⟨h.not_mem hopen, .inr ⟨rest, .inl rfl, hexpired, (h.queued_nil ht).1⟩⟩
      | drain =>
          obtain ⟨⟨left, ht⟩, hopen, hexpired⟩ :=
            Ring.popNow?_none (Option.map_eq_none_iff.mp hstep)
          exact ⟨h.not_mem hopen, .inr ⟨rest, .inr rfl, hexpired, (h.queued_nil ht).1⟩⟩
      | tryPush v => cases hstep
      | tryPop => cases hstep
      | close => cases hstep

/-- **In every interleaving of any number of threads a ring under a lock is a bounded queue.** -/
theorem turns_isFifo {capacity : Nat} (hlt : capacity < 2 ^ 64) {r : Ring α}
    (h : Ring.create capacity = .ok r) (threads : List (Thread α)) (turns : List Turn) :
    ((Crew.mk r threads).run turns).IsFifo capacity ((Crew.mk r threads).log turns) := by
  obtain ⟨hkeeps, hcapacity, hopen⟩ := Ring.keeps_create hlt h
  have hstart : Sound capacity (Crew.mk r threads).ring [] :=
    ⟨hcapacity, hkeeps, rfl, by simp [hopen], fun hprefix => by simp at hprefix⟩
  have hsound := hstart.run turns
  rw [List.nil_append] at hsound
  refine ⟨hsound.keeps, ?_, hsound.order, hsound.closed, hsound.deeds, fun _ => hsound.waits⟩
  rw [hsound.keeps.holds.size_eq, ← hsound.slots]
  exact hsound.keeps.length_le

/-- A thread waits for room, another makes some, and a third closes the ring. -/
theorem turns_isFifo_two_slots :
    let r : Ring Nat := ⟨Array.replicate 2 none, 0, 0, false⟩
    let c : Crew Nat := ⟨r, [.ofErrands [.push 1, .push 2, .push 3], .ofErrands [.pop, .drain],
      .ofErrands [.close, .tryPush 4]]⟩
    let turns : List Turn := [⟨1, false⟩, ⟨0, false⟩, ⟨0, false⟩, ⟨0, false⟩, ⟨1, false⟩,
      ⟨0, false⟩, ⟨2, false⟩, ⟨1, false⟩, ⟨2, false⟩, ⟨1, false⟩, ⟨1, false⟩]
    Ring.create 2 = .ok r ∧ Deed.takes (c.log turns) = [1, 2, 3] ∧
      (c.run turns).IsFifo 2 (c.log turns) :=
  ⟨rfl, by decide, turns_isFifo (by decide) rfl _ _⟩

end Crew

end Ais
