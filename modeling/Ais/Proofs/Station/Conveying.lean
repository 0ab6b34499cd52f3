import Ais.Proofs.Station.Step

/-!
# Station — what a worker conveys, and what it knows when it leaves

Of the records that were put into its source a worker has converted all but those in hand and those
that wait there, and what came of them was put into its sink or is in hand (`Conveys`).

A worker leaves only after it has seen three things, in this order: that the input is exhausted,
that its source is closed, and that nothing is in it.  Whatever others do in between, what it has
seen stays so: nobody puts into a closed channel (`Knows`).  The other order would not do, since a
batch could be put and the channel closed between the two looks.
-/

namespace Ais

open Receiver (queued arrived arrived_eq)

section Channels

variable {α : Type} {n : Nat} {l l' : Link α n} {b : Buffer α n}

theorem Receiver.arrived_nil (h : l'.contents = l.contents) : arrived l l' = [] :=
  arrived_eq (by rw [queued, h, List.append_nil]; rfl)

theorem Receiver.arrived_self (l : Link α n) : arrived l l = [] := arrived_nil rfl

theorem Receiver.queued_arrived_self (l : Link α n) : queued l = queued l ++ arrived l l := by
  rw [arrived_self, List.append_nil]

theorem Channel.Gains.queued_eq (h : l.Gains b l') : queued l' = queued l ++ b.batch.items := by
  rw [queued, h.contents, Buffer.records_append, Buffer.records_cons, Buffer.records_nil,
    List.append_nil]
  rfl

theorem Channel.Loses.queued_eq (h : l.Loses b l') : queued l = b.batch.items ++ queued l' := by
  rw [queued, h.contents, Buffer.records_cons]
  rfl

theorem Channel.Loses.arrived_eq (h : l.Loses b l') : arrived l l' = [] := by
  rw [arrived, h.queued_eq]
  exact List.drop_eq_nil_of_le (by rw [List.length_append]; exact Nat.le_add_left _ _)

end Channels

variable {σ α β μ ι ο : Type} {n : Nat}

/-- One more record, into a slot that may have been used, comes to what the run comes to. -/
theorem Conversion.Lawful.run_concat [Inhabited β] {c : Conversion σ α β} {showMemory : σ → μ}
    {showInput : α → ι} {showOutput : β → ο} {Valid : α → Prop}
    (lawful : c.Lawful showMemory showInput showOutput Valid) {first memory : σ} {done : List α}
    {outs : List β} (hmemory : showMemory memory = showMemory (c.run first done).1)
    (houts : outs.map showOutput = (c.run first done).2.2.map showOutput) {a : α} (ha : Valid a)
    (tally : Tally) (slot : β) :
    showMemory (c memory tally slot a).memory = showMemory (c.run first (done ++ [a])).1 ∧
      (outs ++ if (c memory tally slot a).kept then [(c memory tally slot a).slot] else []).map
        showOutput = (c.run first (done ++ [a])).2.2.map showOutput := by
  obtain ⟨hmemory', -, hkept, hslot⟩ := lawful.congr tally 0 slot default ha hmemory rfl
  rw [run_append]
  refine ⟨hmemory', ?_⟩
  rw [List.map_append, List.map_append, houts]
  simp only [run, ← hkept]
  cases h : (c memory tally slot a).kept with
  | true => simp only [if_true, List.map_cons, List.map_nil, hslot h]
  | false => rfl

namespace Phase

variable {exhausted exhausted' : Bool} {p q : Phase α β n} {r r' : Section σ α β n}

/-! ### What a worker knows -/

/-- No input will come, and nothing is in the source or will be. -/
structure Drained (exhausted : Bool) (source : Link α n) : Prop where
  exhausted : exhausted = true
  closed    : source.ring.closed = true
  empty     : source.contents = []

/-- What a worker has seen stays so.  Its sink is open until it closes it, which it does only when
its source is drained. -/
def Knows (exhausted : Bool) (r : Section σ α β n) : Phase α β n → Prop
  | .askClosed => exhausted = true ∧ r.sink.ring.closed = false
  | .askEmpty  =>
    exhausted = true ∧ r.source.ring.closed = true ∧ r.sink.ring.closed = false
  | .closeSink result =>
    result = .ok () ∧ Drained exhausted r.source ∧ r.sink.ring.closed = false
  | .abandonSource result | .left result =>
    result = .ok () ∧ Drained exhausted r.source ∧ r.sink.ring.closed = true
  | _ => r.sink.ring.closed = false

namespace Knows

theorem isOpen (h : p.Knows exhausted r) (hp : p.isFree) : r.sink.ring.closed = false := by
  cases p
  case borrow | allocate | convert | send | giveBack | closeSink | abandonSource | left => cases hp
  case askClosed => exact h.2
  case askEmpty => exact h.2.2
  all_goals exact h

/-- The calls of the stage come to their end in no other way. -/
theorem drained (h : p.Knows exhausted r) {result : Except Fault Unit}
    (hp : p.result? = some result) : result = .ok () ∧ Drained exhausted r.source := by
  cases p
  case closeSink | abandonSource | left => cases hp; exact ⟨h.1, h.2.1⟩
  all_goals cases hp

theorem fault_eq_none (h : p.Knows exhausted r) : p.fault? = none := by
  unfold fault?
  split
  case h_1 f hresult => cases (h.drained hresult).1
  case h_2 => rfl

/-- A closed sink was closed by the worker. -/
theorem of_closed (h : p.Knows exhausted r) (hclosed : r.sink.ring.closed = true) :
    p.result? = some (.ok ()) := by
  have hne : r.sink.ring.closed ≠ false := by rw [hclosed]; decide
  cases p
  case abandonSource | left => exact congrArg some h.1
  case askClosed => exact absurd h.2 hne
  case askEmpty | closeSink => exact absurd h.2.2 hne
  all_goals exact absurd h hne

/-- Others may exhaust the input and close the source, but not put into a closed one, and not touch
the sink. -/
theorem mono (h : p.Knows exhausted r) (hexhausted : exhausted = true → exhausted' = true)
    (hsource : r.source.ring.closed = true →
      r'.source.ring.closed = true ∧ r'.source.contents = r.source.contents)
    (hsink : r'.sink.ring.closed = r.sink.ring.closed) : p.Knows exhausted' r' := by
  have hdrained : Drained exhausted r.source → Drained exhausted' r'.source := fun h =>
    ⟨hexhausted h.exhausted, (hsource h.closed).1, (hsource h.closed).2.trans h.empty⟩
  cases p
  case askClosed => exact ⟨hexhausted h.1, hsink.trans h.2⟩
  case askEmpty => exact ⟨hexhausted h.1, (hsource h.2.1).1, hsink.trans h.2.2⟩
  case closeSink | abandonSource | left => exact ⟨h.1, hdrained h.2.1, hsink.trans h.2.2⟩
  all_goals exact hsink.trans h

end Knows

variable [Inhabited β] {c : Conversion σ α β}

/-- **What a worker has seen stays so**, unless it finds its pool exhausted. -/
theorem Step.knows (h : Step c exhausted p r q r') (hp : p.Knows exhausted r)
    (hpool : ∀ k, q.fault? ≠ some (.poolExhausted k)) : q.Knows exhausted r' := by
  cases h with
  | rests => exact hp
  | turns hfree hq =>
      have hopen := hp.isOpen hfree
      rcases hq with rfl | rfl <;> exact hopen
  | looks | findsRoom | takes | borrows | findsNone | allocates | converts | drops | ends
  | givesBack => exact hp
  | findsClosed h | refused h =>
      have hopen : r.sink.ring.closed = false := hp
      rw [h] at hopen
      cases hopen
  | starves h =>
      refine absurd ?_ (hpool r.outputs.allocated)
      rw [Pool.allocate_error h]
      rfl
  | sends hopen h => exact h.closed.trans hopen
  | findsExhausted h => exact ⟨h, hp⟩
  | findsLast h => exact ⟨hp.1, h, hp.2⟩
  | findsEmpty h => exact ⟨rfl, ⟨hp.1, hp.2.1, h⟩, hp.2.2⟩
  | closes => exact ⟨hp.1, hp.2.1, rfl⟩
  | abandons => exact ⟨hp.1, ⟨hp.2.1.exhausted, rfl, hp.2.1.empty⟩, hp.2.2⟩

/-- A worker does not close its source, unless it is closed already. -/
theorem Step.source_closed (h : Step c exhausted p r q r') (hp : p.Knows exhausted r) :
    r'.source.ring.closed = r.source.ring.closed := by
  cases h with
  | takes h => exact h.closed
  | abandons => exact hp.2.1.closed.symm
  | _ => rfl

/-! ### What a step does to the channels -/

/-- A worker takes from its source, and puts nothing in. -/
theorem Step.source_arrived (h : Step c exhausted p r q r') : arrived r.source r'.source = [] := by
  cases h with
  | takes h => exact h.arrived_eq
  | _ => exact Receiver.arrived_self _

/-- A source that is closed stays closed. -/
theorem Step.source_stays (h : Step c exhausted p r q r') (hclosed : r.source.ring.closed = true) :
    r'.source.ring.closed = true := by
  cases h with
  | takes h => exact h.closed.trans hclosed
  | abandons => rfl
  | _ => exact hclosed

/-- What is put into the sink stands behind what was there. -/
theorem Step.sink_queued (h : Step c exhausted p r q r') :
    queued r'.sink = queued r.sink ++ arrived r.sink r'.sink := by
  cases h with
  | sends _ h => rw [arrived_eq h.queued_eq, h.queued_eq]
  | _ => exact Receiver.queued_arrived_self _

theorem Step.sink_abandoned (h : Step c exhausted p r q r') :
    r'.sink.abandoned = r.sink.abandoned := by
  cases h with
  | sends _ h => exact h.abandoned
  | _ => rfl

/-- A closed sink stays as it is. -/
theorem Step.sink_closed (h : Step c exhausted p r q r') (hclosed : r.sink.ring.closed = true) :
    r'.sink.ring.closed = true ∧ r'.sink.contents = r.sink.contents := by
  cases h with
  | sends hopen =>
      rw [hclosed] at hopen
      cases hopen
  | closes => exact ⟨rfl, rfl⟩
  | _ => exact ⟨hclosed, rfl⟩

/-! ### What was conveyed -/

variable {showMemory : σ → μ} {showInput : α → ι} {showOutput : β → ο} {Valid : α → Prop}
  {first : σ} {ins : List α} {outs : List β}

/-- Of the records `ins` that were put into the source, all have been converted but those to do and
those that wait, and what came of them has been put into the sink, as `outs`, but for what is in
hand. -/
def Conveys (c : Conversion σ α β) (first : σ) (showMemory : σ → μ) (showOutput : β → ο)
    (ins : List α) (outs : List β) (p : Phase α β n) (r : Section σ α β n) : Prop :=
  ∃ done, ins = done ++ (p.todo ++ queued r.source) ∧
    showMemory r.memory = showMemory (c.run first done).1 ∧
    (outs ++ p.made).map showOutput = (c.run first done).2.2.map showOutput

/-- **A worker conveys step by step**, unless it fails. -/
theorem Step.conveys (lawful : c.Lawful showMemory showInput showOutput Valid)
    (hvalid : ∀ a ∈ ins, Valid a) (h : Step c exhausted p r q r') (hok : q.fault? = none)
    (hp : p.Conveys c first showMemory showOutput ins outs r) (hfits : p.Tidy r) :
    q.Conveys c first showMemory showOutput ins (outs ++ arrived r.sink r'.sink) r' := by
  obtain ⟨done, hins, hmemory, houts⟩ := hp
  have hsame : ∀ {l : Link β n}, queued l = queued r.sink → outs ++ arrived r.sink l = outs :=
    fun {l} h => by rw [arrived_eq (h.trans (List.append_nil _).symm), List.append_nil]
  cases h with
  | turns hp hq =>
      obtain ⟨htodo, -, hmade, -⟩ := empty_of_isFree hp
      rw [htodo] at hins
      rw [made, hmade] at houts
      rw [hsame rfl]
      rcases hq with rfl | rfl <;> exact ⟨done, hins, hmemory, houts⟩
  | takes h =>
      rw [hsame rfl]
      refine ⟨done, ?_, hmemory, houts⟩
      rw [hins, h.queued_eq]
      rfl
  | borrows h =>
      obtain ⟨hitems, -⟩ := hfits.outputs.takeSpare? h
      rw [hsame rfl]
      refine ⟨done, hins, hmemory, ?_⟩
      rw [show made (.convert _ _ _ : Phase α β n) = _ from hitems]
      exact houts
  | allocates h =>
      obtain ⟨hitems, -⟩ := hfits.outputs.allocate h
      rw [hsame rfl]
      refine ⟨done, hins, hmemory, ?_⟩
      rw [show made (.convert _ _ _ : Phase α β n) = _ from hitems]
      exact houts
  | @converts r input a as out memory tally batch room h =>
      obtain ⟨slot, written, hrecord, hitems⟩ :=
        Relay.record?_yields c r.memory r.tally room a
      rw [hrecord] at h
      cases h
      have ha : a ∈ ins := by
        rw [hins]
        exact List.mem_append_right _ (List.mem_append_left _ List.mem_cons_self)
      obtain ⟨hmemory', houts'⟩ :=
        lawful.run_concat hmemory houts (hvalid a ha) r.tally slot
      rw [hsame rfl]
      refine ⟨done ++ [a], ?_, hmemory', ?_⟩
      · rw [hins, List.append_assoc]
        rfl
      · rw [show made (.convert input as { out with batch } : Phase α β n) = _ from
          hitems, ← List.append_assoc]
        exact houts'
  | drops h =>
      rw [hsame rfl]
      refine ⟨done, hins, hmemory, ?_⟩
      rw [show made (.convert _ [] _ : Phase α β n) = _ from h] at houts
      exact houts
  | sends _ h =>
      refine ⟨done, hins, hmemory, ?_⟩
      rw [arrived_eq h.queued_eq]
      exact (congrArg (List.map showOutput) (List.append_nil _)).trans houts
  | starves | refused | findsClosed => cases hok
  | closes =>
      rw [hsame (l := r.sink.close) rfl]
      exact ⟨done, hins, hmemory, houts⟩
  | _ =>
      rw [hsame rfl]
      exact ⟨done, hins, hmemory, houts⟩

/-- What others put into the source waits there. -/
theorem Conveys.feed {more : List α} (h : p.Conveys c first showMemory showOutput ins outs r)
    (hsource : queued r'.source = queued r.source ++ more) (hmemory : r'.memory = r.memory) :
    p.Conveys c first showMemory showOutput (ins ++ more) outs r' := by
  obtain ⟨done, hins, hmemory', houts⟩ := h
  refine ⟨done, ?_, hmemory ▸ hmemory', houts⟩
  rw [hins, hsource]
  simp only [List.append_assoc]

/-- The source is drained, all that was put into it has been converted, and what came of it was put
into the sink. -/
structure Finished (c : Conversion σ α β) (first : σ) (showMemory : σ → μ) (showOutput : β → ο)
    (exhausted : Bool) (ins : List α) (outs : List β) (r : Section σ α β n) : Prop where
  drained : Drained exhausted r.source
  memory  : showMemory r.memory = showMemory (c.run first ins).1
  outs    : outs.map showOutput = (c.run first ins).2.2.map showOutput

/-- **A worker whose calls of the stage came to their end has nothing left to do.** -/
theorem Conveys.finished (h : p.Conveys c first showMemory showOutput ins outs r)
    (hp : p.Knows exhausted r) (hresult : p.result? = some (.ok ())) :
    Finished c first showMemory showOutput exhausted ins outs r := by
  obtain ⟨done, hins, hmemory, houts⟩ := h
  obtain ⟨-, hdrained⟩ := hp.drained hresult
  have hqueued : queued r.source = [] := by
    rw [queued, hdrained.empty, Buffer.records_nil]
  have hnone : p.todo = [] ∧ p.made = [] := by
    cases p
    case closeSink | abandonSource | left => exact ⟨rfl, rfl⟩
    all_goals cases hresult
  rw [hnone.1, hqueued, List.append_nil, List.append_nil] at hins
  rw [hnone.2, List.append_nil] at houts
  subst hins
  exact ⟨hdrained, hmemory, houts⟩

end Phase

end Ais
