import Ais.Proofs.Queue.Slots
import Ais.Queue.Lockfree

/-!
# Queue — one putter, one taker, every interleaving

Between any two loads or stores of the two threads the values that wait are those put and not yet
taken, in their order, and the slots hold just these, up to a value written and not yet published
and a slot read and not yet given back (`Duplex.Sound`).  What a thread has read of the other's
counter may be stale by then, but only to the safe side: values that a taker has seen are still
there, and so is the room that a putter has found.

* `Step`, `step_move`: what a single load or store does.
* `Sound.step`, `Sound.run`: every step keeps the above, and so every run.
-/

namespace Ais

variable {α : Type}

namespace Putting

/-- The value written and not yet published. -/
def written : Putting α → List (Option α)
  | publish v _ => [some v]
  | _           => []

/-- How many steps the put has left, at most. -/
def steps : Putting α → Nat
  | loadClosed _  => 5
  | loadBack _    => 4
  | loadFront _ _ => 3
  | write _ _     => 2
  | publish _ _   => 1
  | idle _ | gone => 0

theorem steps_le (p : Putting α) : p.steps ≤ 5 := by
  cases p <;> simp [steps]

/-- The put has found the ring open. -/
def underWay : Putting α → Bool
  | idle _ | gone | loadClosed _ => false
  | _                            => true

/-- What the putter has read holds, or there is more room by now. -/
def Knows (r : Ring α) (waiting : List α) : Putting α → Prop
  | loadFront _ back              => back = r.back
  | write _ back | publish _ back => back = r.back ∧ waiting.length < r.capacity
  | _                             => True

/-- The other thread makes room. -/
theorem Knows.mono {r s : Ring α} {waiting rest : List α} {p : Putting α} (h : p.Knows r waiting)
    (hback : s.back = r.back) (hcapacity : s.capacity = r.capacity)
    (hle : rest.length ≤ waiting.length) : p.Knows s rest := by
  cases p with
  | loadFront v back => exact h.trans hback.symm
  | write v back => exact ⟨h.1.trans hback.symm, hcapacity ▸ Nat.lt_of_le_of_lt hle h.2⟩
  | publish v back => exact ⟨h.1.trans hback.symm, hcapacity ▸ Nat.lt_of_le_of_lt hle h.2⟩
  | idle _ | gone | loadClosed _ | loadBack _ => trivial

end Putting

namespace Taking

/-- What the slots of the values that wait hold: the first may have been emptied. -/
def left (waiting : List α) : Taking α → List (Option α)
  | publish _ _ => none :: waiting.tail.map some
  | _           => waiting.map some

/-- How many steps the take has left, at most. -/
def steps : Taking α → Nat
  | loadFront     => 5
  | loadClosed _  => 4
  | loadBack _ _  => 3
  | read _        => 2
  | publish _ _   => 1
  | idle _ | gone => 0

theorem steps_le (t : Taking α) : t.steps ≤ 5 := by
  cases t <;> simp [steps]

/-- What the taker has read holds, or more values wait by now. -/
def Knows (r : Ring α) (waiting : List α) : Taking α → Prop
  | loadClosed front      => front = r.front
  | loadBack front closed => front = r.front ∧ (closed = true → r.closed = true)
  | read front            => front = r.front ∧ waiting ≠ []
  | publish front value   => front = r.front ∧ waiting ≠ [] ∧ value = waiting.head?
  | _                     => True

/-- The other thread puts values and closes the ring. -/
theorem Knows.mono {r s : Ring α} {waiting more : List α} {t : Taking α} (h : t.Knows r waiting)
    (hfront : s.front = r.front) (hclosed : r.closed = true → s.closed = true) :
    t.Knows s (waiting ++ more) := by
  cases t with
  | loadClosed front => exact h.trans hfront.symm
  | loadBack front closed => exact ⟨h.1.trans hfront.symm, fun hc => hclosed (h.2 hc)⟩
  | read front => exact ⟨h.1.trans hfront.symm, by simp [h.2]⟩
  | publish front value =>
      obtain ⟨hf, hne, rfl⟩ := h
      obtain ⟨v, rest, rfl⟩ := List.exists_cons_of_ne_nil hne
      exact ⟨hf.trans hfront.symm, List.cons_ne_nil v _, rfl⟩
  | idle _ | gone | loadFront => trivial

/-- The other thread is at a value that it has not published. -/
theorem Knows.congr {r s : Ring α} {waiting : List α} {t : Taking α} (h : t.Knows r waiting)
    (hfront : s.front = r.front) (hclosed : r.closed = true → s.closed = true) :
    t.Knows s waiting := by
  simpa using @mono α r s waiting [] t h hfront hclosed

theorem Knows.length_left {r : Ring α} {waiting : List α} {t : Taking α} (h : t.Knows r waiting) :
    (t.left waiting).length = waiting.length := by
  cases t with
  | publish front value =>
      have hpos := List.length_pos_iff.mpr h.2.1
      simp only [left, List.length_cons, List.length_map, List.length_tail]
      omega
  | idle _ | gone | loadFront | loadClosed _ | loadBack _ _ | read _ => simp [left]

theorem Knows.left_append {r : Ring α} {waiting : List α} {t : Taking α} (h : t.Knows r waiting)
    (v : α) : t.left (waiting ++ [v]) = t.left waiting ++ [some v] := by
  cases t with
  | publish front value => simp [left, List.tail_append_of_ne_nil h.2.1]
  | idle _ | gone | loadFront | loadClosed _ | loadBack _ _ | read _ => simp [left]

end Taking

namespace Duplex

variable {d d' : Duplex α} {mv : Move α} {waiting : List α}

/-! ### One step -/

/-- What a move does: the load, the store or the answer that is due. -/
inductive Step (d : Duplex α) : Move α → Duplex α → Prop where
  /-- The move is not due: there is no put or take to go on with, or one is under way already. -/
  | stays {mv : Move α} (hp : mv = .putter → d.putting.steps = 0)
      (ht : mv = .taker → d.taking.steps = 0) : Step d mv d
  | beginsPut {answer} (hp : d.putting = .idle answer) (v : α) :
      Step d (.beginPut v) { d with putting := .loadClosed v }
  | closes {answer} (hp : d.putting = .idle answer) : Step d .close { d with ring := d.ring.close }
  | putterLeaves {answer} (hp : d.putting = .idle answer) :
      Step d .leavePut { d with ring := d.ring.close, putting := .gone }
  | refusesClosed {v} (hp : d.putting = .loadClosed v) (hc : d.ring.closed = true) :
      Step d .putter { d with putting := .idle (some (.error (.closed v))) }
  | findsOpen {v} (hp : d.putting = .loadClosed v) (hc : d.ring.closed = false) :
      Step d .putter { d with putting := .loadBack v }
  | putterLoadsBack {v} (hp : d.putting = .loadBack v) :
      Step d .putter { d with putting := .loadFront v d.ring.back }
  | refusesFull {v back} (hp : d.putting = .loadFront v back)
      (hfull : d.ring.capacity ≤ Ring.distance d.ring.front back) :
      Step d .putter { d with putting := .idle (some (.error (.full v))) }
  | findsRoom {v back} (hp : d.putting = .loadFront v back)
      (room : Ring.distance d.ring.front back < d.ring.capacity) :
      Step d .putter { d with putting := .write v back }
  | writes {v back} (hp : d.putting = .write v back) :
      Step d .putter { d with ring := d.ring.setSlot back (some v), putting := .publish v back }
  | publishesBack {v back} (hp : d.putting = .publish v back) :
      Step d .putter
        { d with
            ring    := { d.ring with back := back + 1 }
            putting := .idle (some (.ok ()))
            put     := v :: d.put }
  | beginsTake {answer} (ht : d.taking = .idle answer) :
      Step d .beginTake { d with taking := .loadFront }
  | takerLeaves {answer} (ht : d.taking = .idle answer) :
      Step d .leaveTake { d with ring := d.ring.close, taking := .gone }
  | takerLoadsFront (ht : d.taking = .loadFront) :
      Step d .taker { d with taking := .loadClosed d.ring.front }
  | takerLoadsClosed {front} (ht : d.taking = .loadClosed front) :
      Step d .taker { d with taking := .loadBack front d.ring.closed }
  | findsEmpty {closed} (ht : d.taking = .loadBack d.ring.back closed) :
      Step d .taker
        { d with taking := .idle (some (.error (if closed then .closed else .empty))) }
  | findsValue {front closed} (ht : d.taking = .loadBack front closed) (hne : front ≠ d.ring.back) :
      Step d .taker { d with taking := .read front }
  | reads {front} (ht : d.taking = .read front) :
      Step d .taker
        { d with
            ring   := d.ring.setSlot front none
            taking := .publish front (d.ring.slot? front) }
  | publishesFront {front v} (ht : d.taking = .publish front (some v)) :
      Step d .taker
        { d with
            ring   := { d.ring with front := front + 1 }
            taking := .idle (some (.ok v))
            taken  := v :: d.taken }
  | publishesNothing {front} (ht : d.taking = .publish front none) :
      Step d .taker { d with ring := { d.ring with front := front + 1 }, taking := .idle none }

theorem step_putter (d : Duplex α) : d.Step .putter d.stepPut := by
  cases hp : d.putting with
  | loadClosed v =>
      cases hc : d.ring.closed with
      | true => simpa only [stepPut, hp, hc, if_true] using Step.refusesClosed hp hc
      | false => simpa only [stepPut, hp, hc, Bool.false_eq_true, if_false] using Step.findsOpen hp hc
  | loadBack v => simpa only [stepPut, hp] using Step.putterLoadsBack hp
  | loadFront v back =>
      by_cases hfull : d.ring.capacity ≤ Ring.distance d.ring.front back
      · simpa only [stepPut, hp, if_pos hfull] using Step.refusesFull hp hfull
      · simpa only [stepPut, hp, if_neg hfull] using Step.findsRoom hp (Nat.lt_of_not_le hfull)
  | write v back => simpa only [stepPut, hp] using Step.writes hp
  | publish v back => simpa only [stepPut, hp] using Step.publishesBack hp
  | idle _ | gone =>
      simpa only [stepPut, hp] using Step.stays (fun _ => by rw [hp]; rfl) (fun h => by cases h)

theorem step_taker (d : Duplex α) : d.Step .taker d.stepTake := by
  cases ht : d.taking with
  | loadFront => simpa only [stepTake, ht] using Step.takerLoadsFront ht
  | loadClosed front => simpa only [stepTake, ht] using Step.takerLoadsClosed ht
  | loadBack front closed =>
      by_cases hempty : front = d.ring.back
      · rw [hempty] at ht
        simpa only [stepTake, ht, if_true] using Step.findsEmpty ht
      · simpa only [stepTake, ht, if_neg hempty] using Step.findsValue ht hempty
  | read front => simpa only [stepTake, ht] using Step.reads ht
  | publish front value =>
      cases value with
      | some v => simpa only [stepTake, ht] using Step.publishesFront ht
      | none => simpa only [stepTake, ht] using Step.publishesNothing ht
  | idle _ | gone =>
      simpa only [stepTake, ht] using Step.stays (fun h => by cases h) (fun _ => by rw [ht]; rfl)

theorem step_move (d : Duplex α) (mv : Move α) : d.Step mv (d.move mv) := by
  cases mv with
  | putter => exact d.step_putter
  | taker => exact d.step_taker
  | beginPut v =>
      cases hp : d.putting with
      | idle answer => simpa only [move, hp] using Step.beginsPut hp v
      | _ =>
          simpa only [move, hp] using Step.stays (fun h => by cases h) (fun h => by cases h)
  | close =>
      cases hp : d.putting with
      | idle answer => simpa only [move, hp] using Step.closes hp
      | _ =>
          simpa only [move, hp] using Step.stays (fun h => by cases h) (fun h => by cases h)
  | leavePut =>
      cases hp : d.putting with
      | idle answer => simpa only [move, hp] using Step.putterLeaves hp
      | _ =>
          simpa only [move, hp] using Step.stays (fun h => by cases h) (fun h => by cases h)
  | beginTake =>
      cases ht : d.taking with
      | idle answer => simpa only [move, ht] using Step.beginsTake ht
      | _ =>
          simpa only [move, ht] using Step.stays (fun h => by cases h) (fun h => by cases h)
  | leaveTake =>
      cases ht : d.taking with
      | idle answer => simpa only [move, ht] using Step.takerLeaves ht
      | _ =>
          simpa only [move, ht] using Step.stays (fun h => by cases h) (fun h => by cases h)

/-! ### What holds between two steps -/

/-- The values `waiting` have been put and not yet taken, and the slots hold them. -/
structure Sound (d : Duplex α) (waiting : List α) : Prop where
  order   : d.put.reverse = d.taken.reverse ++ waiting
  back    : d.ring.back = d.ring.front + UInt64.ofNat waiting.length
  stores  : d.ring.Stores (d.taking.left waiting ++ d.putting.written)
  putting : d.putting.Knows d.ring waiting
  taking  : d.taking.Knows d.ring waiting
  /-- Only the putter closes a ring that is still being read, and not while it puts. -/
  closed  : d.ring.closed = true → d.taking ≠ .gone → d.putting.underWay = false

namespace Sound

theorem length_le (h : d.Sound waiting) : waiting.length ≤ d.ring.capacity := by
  have hle := h.stores.length_le
  rw [List.length_append, h.taking.length_left] at hle
  omega

/-- The counters are as far apart as there are values waiting. -/
theorem size_eq (h : d.Sound waiting) : d.ring.size = waiting.length := by
  obtain ⟨k, hk, hcapacity⟩ := h.stores.capacity
  have hle := h.length_le
  have hlt : 2 ^ k < 2 ^ 64 := Nat.pow_lt_pow_right (by decide) hk
  rw [Ring.size, Ring.distance, h.back, UInt64.add_comm, UInt64.add_sub_cancel,
    UInt64.toNat_ofNat', Nat.mod_eq_of_lt (by omega)]

theorem front_eq_back_iff (h : d.Sound waiting) : d.ring.front = d.ring.back ↔ waiting = [] := by
  refine ⟨fun e => ?_, fun e => ?_⟩
  · have hsize := h.size_eq
    rw [Ring.size, Ring.distance, e, UInt64.sub_self] at hsize
    exact List.length_eq_zero_iff.mp hsize.symm
  · rw [h.back, e]
    simp

/-! ### Loads and stores -/

/-- The putter loads, and writes nothing. -/
theorem putterLoads (h : d.Sound waiting) {p : Putting α} (hwritten : p.written = d.putting.written)
    (hknows : p.Knows d.ring waiting)
    (hclosed : d.ring.closed = true → d.taking ≠ .gone → p.underWay = false) :
    { d with putting := p }.Sound waiting := by
  refine ⟨h.order, h.back, ?_, hknows, h.taking, hclosed⟩
  show d.ring.Stores (d.taking.left waiting ++ p.written)
  rw [hwritten]
  exact h.stores

/-- The taker loads, and empties nothing. -/
theorem takerLoads (h : d.Sound waiting) {t : Taking α}
    (hleft : t.left waiting = d.taking.left waiting) (hknows : t.Knows d.ring waiting)
    (hgone : t ≠ .gone → d.taking ≠ .gone) : { d with taking := t }.Sound waiting := by
  refine ⟨h.order, h.back, ?_, h.putting, hknows, fun hc ht => h.closed hc (hgone ht)⟩
  show d.ring.Stores (t.left waiting ++ d.putting.written)
  rw [hleft]
  exact h.stores

/-- The ring is closed, by a putter that is not putting or for a taker that is gone. -/
theorem close (h : d.Sound waiting) (hclosed : d.taking ≠ .gone → d.putting.underWay = false) :
    { d with ring := d.ring.close }.Sound waiting := by
  refine ⟨h.order, h.back, h.stores.congr rfl rfl, ?_, ?_, fun _ => hclosed⟩
  · exact h.putting.mono rfl rfl (Nat.le_refl _)
  · exact h.taking.congr rfl fun _ => rfl

/-- The slot behind the values that wait is written. -/
theorem write (h : d.Sound waiting) {v : α} {back : UInt64} (hp : d.putting = .write v back) :
    { d with ring := d.ring.setSlot back (some v), putting := .publish v back }.Sound waiting := by
  have hknows := h.putting
  have hclosed := h.closed
  have hstores := h.stores
  rw [hp] at hknows hclosed hstores
  obtain ⟨rfl, room⟩ := hknows
  have hstores : d.ring.Stores (d.taking.left waiting) := by
    simpa [Putting.written] using hstores
  have hlength := h.taking.length_left
  have happend := hstores.append (hlength.symm ▸ room) (some v)
  rw [hlength, ← h.back] at happend
  refine ⟨h.order, h.back, happend, ⟨rfl, ?_⟩, h.taking.congr rfl id, hclosed⟩
  rw [Ring.capacity_setSlot]
  exact room

/-- The value that was written waits from here on. -/
theorem publishBack (h : d.Sound waiting) {v : α} {back : UInt64} (hp : d.putting = .publish v back) :
    { d with
        ring    := { d.ring with back := back + 1 }
        putting := .idle (some (.ok ()))
        put     := v :: d.put }.Sound (waiting ++ [v]) := by
  have hknows := h.putting
  have hstores := h.stores
  rw [hp] at hknows hstores
  obtain ⟨rfl, -⟩ := hknows
  refine ⟨?_, ?_, ?_, trivial, h.taking.mono rfl id, fun _ _ => rfl⟩
  · rw [List.reverse_cons, h.order, List.append_assoc]
  · simp [h.back, UInt64.ofNat_add, UInt64.add_assoc]
  · rw [h.taking.left_append, List.append_assoc]
    exact hstores.congr rfl rfl

/-- A taker that is about to read finds the oldest value. -/
theorem slot_front (h : d.Sound waiting) {front : UInt64} (ht : d.taking = .read front) :
    ∃ v rest, waiting = v :: rest ∧ front = d.ring.front ∧ d.ring.slot? front = some v := by
  have hknows := h.taking
  have hstores := h.stores
  rw [ht] at hknows hstores
  obtain ⟨rfl, hne⟩ := hknows
  obtain ⟨v, rest, rfl⟩ := List.exists_cons_of_ne_nil hne
  exact ⟨v, rest, rfl, rfl, hstores.slot_front⟩

/-- The oldest value is read out of its slot. -/
theorem read (h : d.Sound waiting) {front : UInt64} (ht : d.taking = .read front) :
    { d with
        ring   := d.ring.setSlot front none
        taking := .publish front (d.ring.slot? front) }.Sound waiting := by
  obtain ⟨v, rest, rfl, rfl, hfirst⟩ := h.slot_front ht
  have hstores := h.stores
  rw [ht] at hstores
  refine ⟨h.order, h.back, hstores.clear, ?_, ?_, fun hc _ => h.closed hc (by simp [ht])⟩
  · exact h.putting.mono rfl (Ring.capacity_setSlot _ _ _) (Nat.le_refl _)
  · exact ⟨rfl, List.cons_ne_nil v rest, hfirst⟩

/-- What the taker has read is the oldest value, and there is one. -/
theorem value_eq (h : d.Sound waiting) {front : UInt64} {value : Option α}
    (ht : d.taking = .publish front value) :
    ∃ v rest, waiting = v :: rest ∧ front = d.ring.front ∧ value = some v := by
  have hknows := h.taking
  rw [ht] at hknows
  obtain ⟨rfl, hne, rfl⟩ := hknows
  obtain ⟨v, rest, rfl⟩ := List.exists_cons_of_ne_nil hne
  exact ⟨v, rest, rfl, rfl, rfl⟩

/-- The slot that was read is given back. -/
theorem publishFront (h : d.Sound waiting) {front : UInt64} {v : α}
    (ht : d.taking = .publish front (some v)) :
    { d with
        ring   := { d.ring with front := front + 1 }
        taking := .idle (some (.ok v))
        taken  := v :: d.taken }.Sound waiting.tail := by
  obtain ⟨v, rest, rfl, rfl, hvalue⟩ := h.value_eq ht
  cases hvalue
  have hstores := h.stores
  rw [ht] at hstores
  refine ⟨?_, ?_, hstores.advance, ?_, trivial, fun hc _ => h.closed hc (by simp [ht])⟩
  · rw [List.reverse_cons, h.order, List.append_assoc]
    rfl
  · rw [h.back, List.length_cons, UInt64.ofNat_add, UInt64.add_assoc, UInt64.add_comm 1]
    rfl
  · exact h.putting.mono rfl rfl (Nat.le_succ _)

/-! ### Every step -/

theorem step (h : d.Sound waiting) (hstep : d.Step mv d') : ∃ rest, d'.Sound rest := by
  have hputting := h.putting
  have htaking := h.taking
  have hclosed := h.closed
  cases hstep with
  | stays => exact ⟨waiting, h⟩
  | beginsPut hp => exact ⟨waiting, h.putterLoads (by rw [hp]; rfl) trivial fun _ _ => rfl⟩
  | closes hp => exact ⟨waiting, h.close fun _ => by rw [hp]; rfl⟩
  | putterLeaves hp =>
      have hgone := h.putterLoads (p := .gone) (by rw [hp]; rfl) trivial fun _ _ => rfl
      exact ⟨waiting, hgone.close fun _ => rfl⟩
  | refusesClosed hp | refusesFull hp =>
      exact ⟨waiting, h.putterLoads (by rw [hp]; rfl) trivial fun _ _ => rfl⟩
  | findsOpen hp hopen =>
      refine ⟨waiting, h.putterLoads (by rw [hp]; rfl) trivial fun hc => ?_⟩
      rw [hopen] at hc
      cases hc
  | putterLoadsBack hp =>
      rw [hp] at hclosed
      exact ⟨waiting, h.putterLoads (by rw [hp]; rfl) rfl hclosed⟩
  | findsRoom hp room =>
      rw [hp] at hputting hclosed
      obtain rfl : _ = d.ring.back := hputting
      have hlt : waiting.length < d.ring.capacity := h.size_eq ▸ room
      exact ⟨waiting, h.putterLoads (by rw [hp]; rfl) ⟨rfl, hlt⟩ hclosed⟩
  | writes hp => exact ⟨waiting, h.write hp⟩
  | publishesBack hp => exact ⟨_, h.publishBack hp⟩
  | beginsTake ht => exact ⟨waiting, h.takerLoads (by rw [ht]; rfl) trivial (by simp [ht])⟩
  | takerLeaves ht =>
      have hgone := h.takerLoads (t := .gone) (by rw [ht]; rfl) trivial fun e => absurd rfl e
      exact ⟨waiting, hgone.close fun e => absurd rfl e⟩
  | takerLoadsFront ht => exact ⟨waiting, h.takerLoads (by rw [ht]; rfl) rfl (by simp [ht])⟩
  | takerLoadsClosed ht =>
      rw [ht] at htaking
      exact ⟨waiting, h.takerLoads (by rw [ht]; rfl) ⟨htaking, id⟩ (by simp [ht])⟩
  | findsEmpty ht => exact ⟨waiting, h.takerLoads (by rw [ht]; rfl) trivial (by simp [ht])⟩
  | findsValue ht hne =>
      rw [ht] at htaking
      obtain ⟨rfl, -⟩ := htaking
      refine ⟨waiting, h.takerLoads (by rw [ht]; rfl) ⟨rfl, fun e => ?_⟩ (by simp [ht])⟩
      exact hne (h.front_eq_back_iff.mpr e)
  | reads ht => exact ⟨waiting, h.read ht⟩
  | publishesFront ht => exact ⟨waiting.tail, h.publishFront ht⟩
  | publishesNothing ht =>
      obtain ⟨_, _, _, _, hvalue⟩ := h.value_eq ht
      cases hvalue

theorem run (h : d.Sound waiting) (moves : List (Move α)) :
    ∃ rest, (d.run moves).Sound rest := by
  induction moves generalizing d waiting with
  | nil => exact ⟨waiting, h⟩
  | cons mv moves ih =>
      obtain ⟨rest, hmove⟩ := h.step (d.step_move mv)
      exact ih hmove

end Sound

/-- Two threads at an empty ring. -/
theorem sound_start {r : Ring α} (h : r.Keeps []) (hopen : r.closed = false) : (start r).Sound [] where
  order   := rfl
  back    := h.back
  stores  := h.stores
  putting := trivial
  taking  := trivial
  closed  := fun hc => absurd (hopen.symm.trans hc) Bool.false_ne_true

end Duplex

end Ais
