import Ais.Proofs.Queue.Lockfree

/-!
# Queue — what an interleaving tells its two threads

The ring that one putter and one taker share is a bounded queue in every interleaving of their loads
and stores (`Duplex.IsFifo`, `Duplex.moves_isFifo`).  `Duplex.Sound` gives the values and their slots;
here are the answers.

* `run_beginPut`: until it writes its slot a put only reads, and reading leaves no trace; so a put that
  is refused may as well not have happened.
* `Drained`: nothing waits, and nothing will.  It begins where a taker is told so (`Sound.drained`),
  every step keeps it, and each take under it is told the same (`Drained.run_beginTake`).
* `putSteps_run`, `takeSteps_run`: neither thread needs more than five steps, whatever the other does.
-/

namespace Ais

variable {α : Type}

namespace Move

/-- The move is the taker's. -/
def ofTaker : Move α → Bool
  | beginTake | taker | leaveTake => true
  | _                             => false

/-- The putter loads or stores. -/
def isPutter : Move α → Bool
  | putter => true
  | _      => false

/-- The taker loads or stores. -/
def isTaker : Move α → Bool
  | taker => true
  | _     => false

end Move

namespace Putting

/-- A put of `v` that has written nothing, and never will if it is refused. -/
inductive Tries (v : α) : Putting α → Prop where
  | loadClosed : Tries v (loadClosed v)
  | loadBack : Tries v (loadBack v)
  | loadFront (back : UInt64) : Tries v (loadFront v back)
  | write (back : UInt64) : Tries v (write v back)
  | full : Tries v (idle (some (.error (.full v))))
  | closed : Tries v (idle (some (.error (.closed v))))

end Putting

namespace Taking

/-- The answer of a take that a step has ended. -/
def answer? : Taking α → Taking α → Option (Except Dry α)
  | idle _, _      => none
  | _, idle answer => answer
  | _, _           => none

theorem answer?_self (t : Taking α) : answer? t t = none := by
  cases t <;> rfl

end Taking

namespace Duplex

variable {d d' : Duplex α} {mv : Move α} {ms : List (Move α)} {waiting : List α}

/-- The answer of the take that a move ends. -/
def takeAnswer? (d : Duplex α) (mv : Move α) : Option (Except Dry α) :=
  Taking.answer? d.taking (d.move mv).taking

theorem run_cons (d : Duplex α) (mv : Move α) (ms : List (Move α)) :
    d.run (mv :: ms) = (d.move mv).run ms := rfl

/-! ### What a step leaves alone -/

namespace Step

theorem capacity (h : d.Step mv d') : d'.ring.capacity = d.ring.capacity := by
  cases h <;> first | rfl | exact Ring.capacity_setSlot _ _ _

/-- A ring stays closed. -/
theorem closed (h : d.Step mv d') (hc : d.ring.closed = true) : d'.ring.closed = true := by
  cases h <;> first | exact hc | rfl

/-- The taker leaves to the putter what is the putter's. -/
theorem putting (h : d.Step mv d') (hmv : mv.ofTaker = true) :
    d'.putting = d.putting ∧ d'.put = d.put := by
  cases h <;> first | exact ⟨rfl, rfl⟩ | cases hmv

/-- A value counts as put when `back` is stored. -/
theorem put (h : d.Step mv d') :
    d'.put = d.put ∨ ∃ v back, d.putting = .publish v back ∧ d'.put = v :: d.put ∧
      d'.putting = .idle (some (.ok ())) := by
  cases h with
  | publishesBack hp => exact .inr ⟨_, _, hp, rfl, rfl⟩
  | _ => exact .inl rfl

/-- A value counts as taken when `front` is stored. -/
theorem taken (h : d.Step mv d') :
    d'.taken = d.taken ∨ ∃ front v, d.taking = .publish front (some v) ∧ d'.taken = v :: d.taken ∧
      Taking.answer? d.taking d'.taking = some (.ok v) := by
  cases h with
  | publishesFront ht => exact .inr ⟨_, _, ht, rfl, by rw [ht]; rfl⟩
  | _ => exact .inl rfl

/-- No put gets under way at a closed ring. -/
theorem underWay (h : d.Step mv d') (hc : d.ring.closed = true)
    (hp : d.putting.underWay = false) : d'.putting.underWay = false := by
  cases h with
  | findsOpen _ hopen =>
      rw [hc] at hopen
      cases hopen
  | putterLoadsBack hp' | findsRoom hp' | writes hp' =>
      rw [hp'] at hp
      cases hp
  | _ => first | exact hp | rfl

/-- What a taker has seen of the flag is what it was. -/
theorem loadBack (h : d.Step mv d') {front : UInt64} {closed : Bool}
    (ht : d'.taking = .loadBack front closed) :
    d.taking = .loadBack front closed ∨ closed = d.ring.closed := by
  cases h <;> first | exact .inl ht | cases ht
  exact .inr rfl

/-- A step of the putter brings its put nearer to the end, and nobody puts it back. -/
theorem putSteps (h : d.Step mv d') (hmv : ∀ v, mv ≠ .beginPut v) :
    d'.putting.steps ≤ d.putting.steps - if mv.isPutter then 1 else 0 := by
  cases h with
  | stays hp _ =>
      cases mv with
      | putter => simp [hp rfl]
      | _ => exact Nat.le_refl _
  | beginsPut _ v => exact absurd rfl (hmv v)
  | refusesClosed hp | findsOpen hp | putterLoadsBack hp | refusesFull hp | findsRoom hp | writes hp
  | publishesBack hp => simp [Putting.steps, Move.isPutter, hp]
  | _ => first | exact Nat.le_refl _ | exact Nat.zero_le _

/-- A step of the taker brings its take nearer to the end, and nobody puts it back. -/
theorem takeSteps (h : d.Step mv d') (hmv : mv ≠ .beginTake) :
    d'.taking.steps ≤ d.taking.steps - if mv.isTaker then 1 else 0 := by
  cases h with
  | stays _ ht =>
      cases mv with
      | taker => simp [ht rfl]
      | _ => exact Nat.le_refl _
  | beginsTake => exact absurd rfl hmv
  | takerLoadsFront ht | takerLoadsClosed ht | findsEmpty ht | findsValue ht | reads ht
  | publishesFront ht | publishesNothing ht => simp [Taking.steps, Move.isTaker, ht]
  | _ => first | exact Nat.le_refl _ | exact Nat.zero_le _

/-- A take ends with what it has read, or when it finds the counters equal. -/
theorem takeAnswer (h : d.Step mv d') {answer : Except Dry α}
    (ha : Taking.answer? d.taking d'.taking = some answer) :
    (∃ front v, d.taking = .publish front (some v) ∧ answer = .ok v ∧ d'.taken = v :: d.taken) ∨
      ∃ closed, d.taking = .loadBack d.ring.back closed ∧
        answer = .error (if closed then .closed else .empty) := by
  cases h with
  | publishesFront ht =>
      rw [ht] at ha
      cases ha
      exact .inl ⟨_, _, ht, rfl, rfl⟩
  | findsEmpty ht =>
      rw [ht] at ha
      cases ha
      exact .inr ⟨_, ht, rfl⟩
  | beginsTake ht | takerLeaves ht | takerLoadsFront ht | takerLoadsClosed ht | findsValue ht
  | reads ht | publishesNothing ht =>
      rw [ht] at ha
      cases ha
  | _ =>
      rw [Taking.answer?_self] at ha
      cases ha

end Step

theorem capacity_run (d : Duplex α) (ms : List (Move α)) :
    (d.run ms).ring.capacity = d.ring.capacity := by
  induction ms generalizing d with
  | nil => rfl
  | cons mv ms ih => rw [run_cons, ih, (d.step_move mv).capacity]

/-- A put under way ends after at most five steps of its thread. -/
theorem putSteps_run (d : Duplex α) (hms : ∀ mv ∈ ms, ∀ v, mv ≠ .beginPut v) :
    (d.run ms).putting.steps ≤ d.putting.steps - ms.countP Move.isPutter := by
  induction ms generalizing d with
  | nil => exact Nat.le_refl _
  | cons mv ms ih =>
      obtain ⟨hmv, hrest⟩ := List.forall_mem_cons.mp hms
      have hstep := (d.step_move mv).putSteps hmv
      have hrun := ih (d.move mv) hrest
      rw [run_cons, List.countP_cons]
      omega

/-- A take under way ends after at most five steps of its thread. -/
theorem takeSteps_run (d : Duplex α) (hms : ∀ mv ∈ ms, mv ≠ .beginTake) :
    (d.run ms).taking.steps ≤ d.taking.steps - ms.countP Move.isTaker := by
  induction ms generalizing d with
  | nil => exact Nat.le_refl _
  | cons mv ms ih =>
      obtain ⟨hmv, hrest⟩ := List.forall_mem_cons.mp hms
      have hstep := (d.step_move mv).takeSteps hmv
      have hrun := ih (d.move mv) hrest
      rw [run_cons, List.countP_cons]
      omega

/-! ### A put -/

/-- The taker does not look at where the putter stands. -/
theorem move_putting (hmv : mv.ofTaker = true) (d : Duplex α) (p : Putting α) :
    { d with putting := p }.move mv = { d.move mv with putting := p } := by
  cases mv with
  | beginTake => cases ht : d.taking <;> simp only [move, ht]
  | taker =>
      cases ht : d.taking with
      | publish front value => cases value <;> simp only [move, stepTake, ht]
      | _ => simp only [move, stepTake, ht]
  | leaveTake => cases ht : d.taking <;> simp only [move, ht]
  | _ => cases hmv

/-- The value has been written, and is published now or in the next step. -/
def Writes (v : α) (before : List α) (d : Duplex α) : Prop :=
  (∃ back, d.putting = .publish v back ∧ d.put = before) ∨
    d.putting = .idle (some (.ok ())) ∧ d.put = v :: before

/-- Up to the write a put only changes what its own thread knows. -/
theorem stepPut_tries {v : α} {p : Putting α} (h : p.Tries v) (d : Duplex α) :
    (∃ q, q.Tries v ∧ { d with putting := p }.stepPut = { d with putting := q }) ∨
      Writes v d.put { d with putting := p }.stepPut := by
  cases h with
  | loadClosed =>
      left
      by_cases hc : d.ring.closed = true
      · exact ⟨_, .closed, by simp only [stepPut, hc, if_true]⟩
      · exact ⟨_, .loadBack, by simp only [stepPut, if_neg hc]⟩
  | loadBack => exact .inl ⟨_, .loadFront _, rfl⟩
  | loadFront back =>
      left
      by_cases hfull : d.ring.capacity ≤ Ring.distance d.ring.front back
      · exact ⟨_, .full, by simp only [stepPut, if_pos hfull]⟩
      · exact ⟨_, .write back, by simp only [stepPut, if_neg hfull]⟩
  | write back => exact .inr (.inl ⟨back, rfl, rfl⟩)
  | full => exact .inl ⟨_, .full, rfl⟩
  | closed => exact .inl ⟨_, .closed, rfl⟩

namespace Writes

variable {v : α} {before : List α}

theorem move (h : Writes v before d) (hmv : mv = .putter ∨ mv.ofTaker = true) :
    Writes v before (d.move mv) := by
  rcases hmv with rfl | htaker
  · right
    rcases h with ⟨back, hp, rfl⟩ | ⟨hp, hput⟩
    · simp only [Duplex.move, stepPut, hp, and_self]
    · simp only [Duplex.move, stepPut, hp, hput, and_self]
  · obtain ⟨hputting, hput⟩ := (d.step_move mv).putting htaker
    rw [Writes, hputting, hput]
    exact h

theorem run (h : Writes v before d) (hms : ∀ mv ∈ ms, mv = .putter ∨ mv.ofTaker = true) :
    Writes v before (d.run ms) := by
  induction ms generalizing d with
  | nil => exact h
  | cons mv ms ih =>
      obtain ⟨hmv, hrest⟩ := List.forall_mem_cons.mp hms
      exact ih (h.move hmv) hrest

end Writes

/-- Whatever the taker does meanwhile, a put that has not written its slot has changed nothing. -/
theorem run_tries {v : α} {p : Putting α} (h : p.Tries v) (d : Duplex α)
    (hms : ∀ mv ∈ ms, mv = .putter ∨ mv.ofTaker = true) :
    (∃ q, q.Tries v ∧
      { d with putting := p }.run ms = { d.run (ms.filter Move.ofTaker) with putting := q }) ∨
      Writes v d.put ({ d with putting := p }.run ms) := by
  induction ms generalizing d p with
  | nil => exact .inl ⟨p, h, rfl⟩
  | cons mv ms ih =>
      obtain ⟨hmv, hrest⟩ := List.forall_mem_cons.mp hms
      rcases hmv with rfl | htaker
      · rw [List.filter_cons_of_neg (by simp [Move.ofTaker]), run_cons]
        rcases stepPut_tries h d with ⟨q, hq, hstep⟩ | hwrites
        · rw [show ({ d with putting := p } : Duplex α).move .putter = _ from hstep]
          exact ih hq d hrest
        · exact .inr (hwrites.run hrest)
      · rw [List.filter_cons_of_pos htaker, run_cons, run_cons, move_putting htaker,
          ← ((d.step_move mv).putting htaker).2]
        exact ih h (d.move mv) hrest

/-- **A put either writes its slot, or has changed nothing but what its own thread knows.** -/
theorem run_beginPut {answer : Option (Except (Refusal α) Unit)} (hidle : d.putting = .idle answer)
    (v : α) (hms : ∀ mv ∈ ms, mv = .putter ∨ mv.ofTaker = true) :
    (∃ q, q.Tries v ∧
      d.run (.beginPut v :: ms) = { d.run (ms.filter Move.ofTaker) with putting := q }) ∨
      Writes v d.put (d.run (.beginPut v :: ms)) := by
  have hbegin : d.move (.beginPut v) = { d with putting := .loadClosed v } := by
    simp only [move, hidle]
  rw [run_cons, hbegin]
  exact run_tries .loadClosed d hms

/-! ### A take -/

/-- Nothing waits, and nothing will. -/
structure Drained (d : Duplex α) : Prop where
  sound  : d.Sound []
  closed : d.ring.closed = true
  noPut  : d.putting.underWay = false
  /-- A take that has looked has seen that the ring is closed. -/
  seen   : ∀ {front closed}, d.taking = .loadBack front closed → closed = true

/-- **Who is told that the ring is closed can rely on it**: the flag was loaded before `back`. -/
theorem Sound.drained (h : d.Sound waiting)
    (hanswer : d.takeAnswer? mv = some (.error .closed)) : d.Drained := by
  have htaking := h.taking
  rcases (d.step_move mv).takeAnswer hanswer with ⟨_, _, _, hok, -⟩ | ⟨closed, ht, herror⟩
  · cases hok
  · cases closed with
    | false => cases herror
    | true =>
        rw [ht] at htaking
        obtain ⟨hback, hclosed⟩ := htaking
        obtain rfl := h.front_eq_back_iff.mp hback.symm
        refine ⟨h, hclosed rfl, h.closed (hclosed rfl) (by simp [ht]), fun hseen => ?_⟩
        rw [ht] at hseen
        cases hseen
        rfl

namespace Drained

theorem move (h : d.Drained) (mv : Move α) : (d.move mv).Drained := by
  have hstep := d.step_move mv
  obtain ⟨rest, hrest⟩ := h.sound.step hstep
  have hput : (d.move mv).put = d.put := by
    rcases hstep.put with hput | ⟨v, back, hp, -⟩
    · exact hput
    · have hnoPut := h.noPut
      rw [hp] at hnoPut
      cases hnoPut
  have htaken : (d.move mv).taken = d.taken := by
    rcases hstep.taken with htaken | ⟨front, v, ht, -⟩
    · exact htaken
    · obtain ⟨_, _, hnil, -⟩ := h.sound.value_eq ht
      cases hnil
  have horder := hrest.order
  rw [hput, htaken, h.sound.order, List.append_nil, List.self_eq_append_right] at horder
  subst horder
  refine ⟨hrest, hstep.closed h.closed, hstep.underWay h.closed h.noPut, fun ht => ?_⟩
  rcases hstep.loadBack ht with hbefore | rfl
  · exact h.seen hbefore
  · exact h.closed

theorem run (h : d.Drained) (ms : List (Move α)) : (d.run ms).Drained := by
  induction ms generalizing d with
  | nil => exact h
  | cons mv ms ih => exact ih (h.move mv)

/-- Nobody is told anything else any more. -/
theorem takeAnswer (h : d.Drained) {answer : Except Dry α}
    (hanswer : d.takeAnswer? mv = some answer) : answer = .error .closed := by
  rcases (d.step_move mv).takeAnswer hanswer with ⟨_, _, ht, -⟩ | ⟨closed, ht, rfl⟩
  · obtain ⟨_, _, hnil, -⟩ := h.sound.value_eq ht
    cases hnil
  · rw [h.seen ht]
    rfl

/-- A take that is under way, or was told that the ring is closed. -/
def Told (t : Taking α) : Prop := 0 < t.steps ∨ t = .idle (some (.error .closed))

theorem told (h : d.Drained) (hstep : d.Step mv d') (hleave : mv ≠ .leaveTake)
    (ht : Told d.taking) : Told d'.taking := by
  cases hstep with
  | takerLeaves => exact absurd rfl hleave
  | findsEmpty hback =>
      rw [h.seen hback]
      exact .inr rfl
  | publishesFront hvalue | publishesNothing hvalue =>
      obtain ⟨_, _, hnil, -⟩ := h.sound.value_eq hvalue
      cases hnil
  | _ => first | exact ht | exact .inl (Nat.succ_pos _)

theorem told_run (h : d.Drained) (hms : ∀ mv ∈ ms, mv ≠ .leaveTake) (ht : Told d.taking) :
    Told (d.run ms).taking := by
  induction ms generalizing d with
  | nil => exact ht
  | cons mv ms ih =>
      obtain ⟨hmv, hrest⟩ := List.forall_mem_cons.mp hms
      exact ih (h.move mv) hrest (h.told (d.step_move mv) hmv ht)

/-- A take that begins is told that the ring is closed, as soon as its thread has had its steps. -/
theorem run_beginTake (h : d.Drained) {answer : Option (Except Dry α)}
    (hidle : d.taking = .idle answer) (hms : ∀ mv ∈ ms, mv ≠ .beginTake ∧ mv ≠ .leaveTake)
    (hsteps : 5 ≤ ms.countP Move.isTaker) :
    (d.run (.beginTake :: ms)).taking = .idle (some (.error .closed)) := by
  have hbegin : (d.move .beginTake).taking = .loadFront := by simp only [Duplex.move, hidle]
  have hle := (d.move .beginTake).takeSteps_run fun mv hmv => (hms mv hmv).1
  have htold : Told ((d.move .beginTake).run ms).taking :=
    (h.move .beginTake).told_run (fun mv hmv => (hms mv hmv).2) (.inl (by rw [hbegin]; exact Nat.succ_pos _))
  rw [hbegin, Taking.steps] at hle
  exact htold.resolve_left (by omega)

end Drained

/-! ### A bounded queue -/

/-- A ring of `capacity` slots is a bounded queue, as both of its threads see it. -/
structure IsFifo (capacity : Nat) (d : Duplex α) : Prop where
  /-- The counters are at most `capacity` apart. -/
  bounded  : d.ring.size ≤ capacity
  /-- What has been taken is what was put first, and as many values wait as the counters are apart.
  These lie in the slots from `front` on, and nothing lies in the others, but for the slot at `front`
  that may have been read and the slot at `back` that may have been written. -/
  order    : ∃ waiting, d.put.reverse = d.taken.reverse ++ waiting ∧ d.ring.size = waiting.length ∧
    d.ring.Stores (d.taking.left waiting ++ d.putting.written)
  /-- The slot to be written is empty, and is not that of a value that waits. -/
  write    : ∀ {v back}, d.putting = .write v back → d.ring.slot? back = none ∧
    ∀ i < d.ring.size, d.ring.index back ≠ d.ring.index (d.ring.front + UInt64.ofNat i)
  /-- The slot to be read holds the oldest value that was put and not taken. -/
  read     : ∀ {front}, d.taking = .read front →
    ∃ v, d.ring.slot? front = some v ∧ d.put.reverse[d.taken.length]? = some v
  /-- A take gives the value that it takes, and nothing else takes one. -/
  given    : ∀ {mv v}, d.takeAnswer? mv = some (.ok v) ↔ (d.move mv).taken = v :: d.taken
  /-- Only a put puts, when it succeeds … -/
  puts     : ∀ {mv}, (d.move mv).put = d.put ∨ ∃ v back, d.putting = .publish v back ∧
    (d.move mv).put = v :: d.put ∧ (d.move mv).putting = .idle (some (.ok ()))
  /-- … and a put that succeeds has put its value. -/
  accepted : ∀ {answer v ms}, d.putting = .idle answer →
    (∀ mv ∈ ms, mv = .putter ∨ mv.ofTaker = true) →
    (d.run (.beginPut v :: ms)).putting = .idle (some (.ok ())) →
    (d.run (.beginPut v :: ms)).put = v :: d.put
  /-- A put that is refused hands its value back, and everything is as if only the taker had moved. -/
  rejected : ∀ {answer v ms refusal}, d.putting = .idle answer →
    (∀ mv ∈ ms, mv = .putter ∨ mv.ofTaker = true) →
    (d.run (.beginPut v :: ms)).putting = .idle (some (.error refusal)) →
    refusal.value = v ∧ d.run (.beginPut v :: ms) =
      { d.run (ms.filter Move.ofTaker) with putting := .idle (some (.error refusal)) }
  /-- A taker is told that the ring is closed when it is and everything put has been taken … -/
  closed   : ∀ {mv}, d.takeAnswer? mv = some (.error .closed) →
    d.ring.closed = true ∧ d.taken = d.put
  /-- … from then on no take has another answer … -/
  forever  : ∀ {mv ms later answer}, d.takeAnswer? mv = some (.error .closed) →
    (d.run (mv :: ms)).takeAnswer? later = some answer → answer = .error .closed
  /-- … and every take has this one when its thread has had five steps. -/
  told     : ∀ {mv before answer during}, d.takeAnswer? mv = some (.error .closed) →
    (d.run (mv :: before)).taking = .idle answer →
    (∀ mv ∈ during, mv ≠ .beginTake ∧ mv ≠ .leaveTake) → 5 ≤ during.countP Move.isTaker →
    ((d.run (mv :: before)).run (.beginTake :: during)).taking = .idle (some (.error .closed))
  /-- No put takes more than five steps of its thread, whatever the taker does … -/
  putEnds  : ∀ {ms}, (∀ mv ∈ ms, ∀ v, mv ≠ .beginPut v) → 5 ≤ ms.countP Move.isPutter →
    (d.run ms).putting.steps = 0
  /-- … and no take, whatever the putter does. -/
  takeEnds : ∀ {ms}, (∀ mv ∈ ms, mv ≠ .beginTake) → 5 ≤ ms.countP Move.isTaker →
    (d.run ms).taking.steps = 0

namespace Sound

/-- The slot to be written is not among those whose values wait. -/
theorem write_free (h : d.Sound waiting) {v : α} {back : UInt64} (hp : d.putting = .write v back) :
    d.ring.slot? back = none ∧
      ∀ i < d.ring.size, d.ring.index back ≠ d.ring.index (d.ring.front + UInt64.ofNat i) := by
  have hputting := h.putting
  have hstores := h.stores
  rw [hp] at hputting hstores
  obtain ⟨rfl, room⟩ := hputting
  have hstores : d.ring.Stores (d.taking.left waiting) := by
    simpa [Putting.written] using hstores
  have hend := hstores.slot_end (by rw [h.taking.length_left]; exact room)
  rw [h.taking.length_left, ← h.back] at hend
  refine ⟨hend, fun i hi => ?_⟩
  rw [h.size_eq] at hi
  rw [h.back]
  exact Ring.index_ne hstores.capacity _ room (Nat.lt_trans hi room) (Nat.ne_of_gt hi)

theorem isFifo (h : d.Sound waiting) : d.IsFifo d.ring.capacity where
  bounded := h.size_eq.trans_le h.length_le
  order := ⟨waiting, h.order, h.size_eq, h.stores⟩
  write := h.write_free
  read ht := by
    obtain ⟨v, rest, rfl, -, hslot⟩ := h.slot_front ht
    refine ⟨v, hslot, ?_⟩
    rw [h.order, List.getElem?_append_right (by simp)]
    simp
  given {mv v} := by
    refine ⟨fun hanswer => ?_, fun htaken => ?_⟩
    · rcases (d.step_move mv).takeAnswer hanswer with ⟨_, _, _, hv, htaken⟩ | ⟨_, _, herror⟩
      · cases hv
        exact htaken
      · cases herror
    · rcases (d.step_move mv).taken with hsame | ⟨_, _, _, hcons, hanswer⟩
      · exact absurd (htaken.symm.trans hsame) (List.cons_ne_self v d.taken)
      · obtain rfl := List.head_eq_of_cons_eq (htaken.symm.trans hcons)
        exact hanswer
  puts := (d.step_move _).put
  accepted hidle hms hok := by
    rcases run_beginPut hidle _ hms with ⟨q, hq, hrun⟩ | ⟨back, hp, -⟩ | ⟨-, hput⟩
    · rw [hrun] at hok
      obtain rfl : q = _ := hok
      cases hq
    · rw [hp] at hok
      cases hok
    · exact hput
  rejected hidle hms herror := by
    rcases run_beginPut hidle _ hms with ⟨q, hq, hrun⟩ | ⟨back, hp, -⟩ | ⟨hp, -⟩
    · rw [hrun] at herror ⊢
      obtain rfl : q = _ := herror
      refine ⟨?_, rfl⟩
      cases hq <;> rfl
    · rw [hp] at herror
      cases herror
    · rw [hp] at herror
      cases herror
  closed hanswer := by
    have hdrained := h.drained hanswer
    have horder := hdrained.sound.order
    rw [List.append_nil, List.reverse_inj] at horder
    exact ⟨hdrained.closed, horder.symm⟩
  forever hanswer := ((h.drained hanswer).run (_ :: _)).takeAnswer
  told hanswer := ((h.drained hanswer).run (_ :: _)).run_beginTake
  putEnds hms hsteps := by
    have hle := d.putSteps_run hms
    have hfive := d.putting.steps_le
    omega
  takeEnds hms hsteps := by
    have hle := d.takeSteps_run hms
    have hfive := d.taking.steps_le
    omega

end Sound

/-- **In every interleaving the ring that two threads share is a bounded queue.** -/
theorem moves_isFifo {capacity : Nat} (hlt : capacity < 2 ^ 64) {r : Ring α}
    (h : Ring.create capacity = .ok r) (moves : List (Move α)) :
    ((start r).run moves).IsFifo capacity := by
  obtain ⟨hkeeps, hcapacity, hopen⟩ := Ring.keeps_create hlt h
  obtain ⟨waiting, hsound⟩ := (sound_start hkeeps hopen).run moves
  have hrun : ((start r).run moves).ring.capacity = capacity :=
    (capacity_run _ _).trans hcapacity
  exact hrun ▸ hsound.isFifo

/-- A value that is put after the taker has looked at `front`, and before it looks at `back`. -/
theorem moves_isFifo_between_loads :
    let r : Ring Nat := ⟨Array.replicate 2 none, 0, 0, false⟩
    let d := (start r).run [.beginPut 7, .putter, .putter, .beginTake, .taker, .putter, .putter,
      .taker, .putter, .close, .taker, .taker, .taker]
    Ring.create 2 = .ok r ∧ d.taken = [7] ∧ d.IsFifo 2 :=
  ⟨rfl, rfl, moves_isFifo (by decide) rfl _⟩

end Duplex

end Ais
