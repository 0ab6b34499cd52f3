import Ais.Proofs.Batch
import Ais.Proofs.Queue.Ends
import Ais.Proofs.Stage.Conversion

/-!
# Relays — batches of records

What a relay does with batches, told record by record: the records of the batches it takes are
converted one after the other, and what comes out of them goes to the sink in order.  A batch has
no more records than fit in one batch of the output, so the batch that is being filled is never
handed over before its time, and the pool is asked once for each batch.

* `fills_of_room`, `handleOne_yields`: the records of one batch go into another.
* `handle_moves`: so do those of any number of batches, as long as there are any and the sink has
  room.
-/

namespace Ais

/-- The records go into the batch one by one, and each time there is a slot left. -/
inductive Conversion.Fills {σ α β : Type} {n : Nat} (c : Conversion σ α β) :
    σ → Tally → Batch β n → List α → σ → Tally → Batch β n → Prop where
  | nil (memory : σ) (tally : Tally) (out : Batch β n) : Fills c memory tally out [] memory tally out
  | cons {m₁ m₂ m₃ : σ} {t₁ t₂ t₃ : Tally} {out next last : Batch β n} {a : α} {as : List α}
      (room : out.isFull = false) (record : c.record? m₁ t₁ out a = some (m₂, t₂, next))
      (rest : Fills c m₂ t₂ next as m₃ t₃ last) : Fills c m₁ t₁ out (a :: as) m₃ t₃ last

namespace Relay

variable {S K σ α β μ ι ο : Type} {n : Nat} {c : Conversion σ α β}
  {showMemory : σ → μ} {showInput : α → ι} {showOutput : β → ο} {Valid : α → Prop}

/-- A record goes into a batch that has a slot for it. -/
theorem record?_yields (c : Conversion σ α β) (memory : σ) (tally : Tally) {out : Batch β n}
    (room : out.isFull = false) (a : α) :
    ∃ slot out', c.record? memory tally out a =
        some ((c memory tally slot a).memory, (c memory tally slot a).tally, out') ∧
      out'.items = out.items ++
        if (c memory tally slot a).kept then [(c memory tally slot a).slot] else [] := by
  obtain ⟨slot, claimed, hclaim⟩ := Batch.claim?_of_not_isFull room
  obtain ⟨hset, hdrop⟩ := Batch.items_of_claim? hclaim (c memory tally slot a).slot
  refine ⟨slot, if (c memory tally slot a).kept then claimed.setBack (c memory tally slot a).slot
    else (claimed.setBack (c memory tally slot a).slot).dropBack, ?_, ?_⟩
  · simp only [Conversion.record?, hclaim, Option.map_some]
  · cases (c memory tally slot a).kept with
    | true => exact hset
    | false => exact hdrop.trans (List.append_nil _).symm

/-- A record takes one slot at most. -/
theorem size_of_record? {memory memory' : σ} {tally tally' : Tally}
    {out out' : Batch β n} {a : α} (room : out.isFull = false)
    (h : c.record? memory tally out a = some (memory', tally', out')) :
    out'.size ≤ out.size + 1 := by
  obtain ⟨slot, written, hrecord, hitems⟩ := record?_yields c memory tally room a
  rw [hrecord] at h
  cases h
  have hlength := congrArg List.length hitems
  rw [List.length_append, Batch.length_items, Batch.length_items] at hlength
  split at hlength <;> simp at hlength <;> omega

/-- **A batch with room for all the records has a slot for each.** -/
theorem fills_of_room (c : Conversion σ α β) (as : List α) (memory : σ) (tally : Tally)
    {out : Batch β n} (room : out.size + as.length ≤ n) :
    ∃ memory' tally' last, c.Fills memory tally out as memory' tally' last := by
  induction as generalizing memory tally out with
  | nil => exact ⟨memory, tally, out, .nil memory tally out⟩
  | cons a as ih =>
      rw [List.length_cons] at room
      have hfull : out.isFull = false := by
        rw [← Bool.not_eq_true, Batch.isFull_iff]
        omega
      obtain ⟨slot, next, hrecord, -⟩ := record?_yields c memory tally hfull a
      have hsize := size_of_record? hfull hrecord
      have hroom : next.size + as.length ≤ n := by omega
      obtain ⟨memory', tally', last, hrest⟩ := ih _ _ hroom
      exact ⟨memory', tally', last, .cons hfull hrecord hrest⟩

/-- An empty batch has room for the records of any other. -/
theorem fills_of_blank (c : Conversion σ α β) {out : Batch β n} (blank : out.items = [])
    (input : Batch α n) (memory : σ) (tally : Tally) :
    ∃ memory' tally' last, c.Fills memory tally out input.items memory' tally' last := by
  refine fills_of_room c input.items memory tally ?_
  rw [Batch.size_of_items_nil blank, Nat.zero_add, input.length_items]
  exact input.size_le

/-- What comes out of the records stands behind what was in the batch. -/
theorem yields_of_fills {memory memory' : σ} {tally tally' : Tally} {out last : Batch β n}
    {as : List α} (h : c.Fills memory tally out as memory' tally' last) :
    ∃ made, c.Yields memory tally as memory' tally' made ∧ last.items = out.items ++ made := by
  induction h with
  | nil memory tally out => exact ⟨[], .nil memory tally, (List.append_nil _).symm⟩
  | @cons m₁ m₂ m₃ t₁ t₂ t₃ out next last a as room record rest ih =>
      obtain ⟨slot, next', hrecord, hitems⟩ := record?_yields c m₁ t₁ room a
      cases record.symm.trans hrecord
      obtain ⟨made, hyields, hlast⟩ := ih
      exact ⟨_, .cons slot hyields, by rw [hlast, hitems, List.append_assoc]⟩

variable [Inhabited β] [Sink K (Buffer β n)]

/-- Where there is a slot for each record, the batch is not handed over in between. -/
theorem convert_of_fills {r : Relay S K σ α β n} (out : Buffer β n) {as : List α} {memory : σ}
    {tally : Tally} {batch : Batch β n}
    (h : c.Fills r.memory r.tally out.batch as memory tally batch) :
    convert c r out as = ({ r with memory, tally }, .ok { out with batch }) := by
  induction as generalizing r out with
  | nil =>
      cases h
      rfl
  | cons a as ih =>
      cases h with
      | cons room record rest =>
          have hconvert := ih (r := ⟨r.source, r.inputs, r.sink, r.outputs, _, _⟩)
            { out with batch := _ } rest
          simp only [convert, room, Bool.false_eq_true, if_false, record, hconvert]

variable {isOpen : K → Prop} {held : K → List (Buffer β n)}

/-- From `r` to `r'` the relay converts the records `as`. -/
structure Moves (c : Conversion σ α β) (showMemory : σ → μ) (showOutput : β → ο)
    (isOpen : K → Prop) (held : K → List (Buffer β n)) (r : Relay S K σ α β n) (as : List α)
    (r' : Relay S K σ α β n) : Prop where
  isOpen  : isOpen r'.sink
  inputs  : r'.inputs.Ready
  outputs : r'.outputs.Ready
  memory  : showMemory r'.memory = showMemory (c.run r.memory as).1
  tally   : r'.tally = r.tally + (c.run r.memory as).2.1
  records : (Buffer.records (held r'.sink)).map showOutput =
    (Buffer.records (held r.sink)).map showOutput ++ (c.run r.memory as).2.2.map showOutput

omit [Sink K (Buffer β n)] in
theorem Moves.refl {r : Relay S K σ α β n} (hopen : isOpen r.sink) (hinputs : r.inputs.Ready)
    (houtputs : r.outputs.Ready) : Moves c showMemory showOutput isOpen held r [] r :=
  ⟨hopen, hinputs, houtputs, rfl, (add_zero _).symm, by simp [Conversion.run]⟩

omit [Sink K (Buffer β n)] in
theorem Moves.trans (lawful : c.Lawful showMemory showInput showOutput Valid)
    {r s t : Relay S K σ α β n} {as more : List α} (hmore : ∀ a ∈ more, Valid a)
    (h : Moves c showMemory showOutput isOpen held r as s)
    (h' : Moves c showMemory showOutput isOpen held s more t) :
    Moves c showMemory showOutput isOpen held r (as ++ more) t := by
  obtain ⟨hrun, htally, hout⟩ := lawful.run_congr h.memory hmore rfl
  refine ⟨h'.isOpen, h'.inputs, h'.outputs, ?_, ?_, ?_⟩
  · rw [h'.memory, hrun, Conversion.run_append]
  · rw [h'.tally, h.tally, htally, Conversion.run_append, add_assoc]
  · rw [h'.records, h.records, hout, Conversion.run_append, List.map_append, List.append_assoc]

omit [Inhabited β] in
/-- The last batch is handed over, or goes back to its pool if nothing is in it. -/
theorem deliver_ok (keeps : Sink.Keeps isOpen held) {r : Relay S K σ α β n} (hopen : isOpen r.sink)
    (room : Sink.isFull r.sink = false) (out : Buffer β n) :
    ∃ sink outputs, r.deliver out = ({ r with sink, outputs }, .ok ()) ∧ isOpen sink ∧
      (outputs = r.outputs ∨ outputs = r.outputs.release out) ∧
      Buffer.records (held sink) = Buffer.records (held r.sink) ++ out.batch.items := by
  cases hempty : out.batch.isEmpty with
  | true =>
      refine ⟨r.sink, r.outputs.release out, by simp only [deliver, hempty, if_true], hopen,
        .inr rfl, ?_⟩
      rw [Batch.isEmpty_iff.mp hempty, List.append_nil]
  | false =>
      obtain ⟨sink, hsend, hsink, hheld⟩ := Stage.handOver_ok keeps hopen room r.outputs out
      refine ⟨sink, r.outputs, ?_, hsink, .inl rfl, by simp [hheld]⟩
      simp only [deliver, hempty, hsend]
      rfl

/-- **One batch is converted and delivered**, once there is an empty one for what comes out. -/
theorem handleOne_yields (keeps : Sink.Keeps isOpen held) {r : Relay S K σ α β n}
    (hopen : isOpen r.sink) (room : Sink.isFull r.sink = false) {out : Buffer β n}
    {outputs : Pool β n} (hacquire : r.outputs.acquire = .ok (out, outputs))
    (hitems : out.batch.items = []) (input : Buffer α n) :
    ∃ sink left memory tally made,
      handleOne c r input =
        (⟨r.source, r.inputs.release input, sink, left, memory, tally⟩, .ok ()) ∧
      isOpen sink ∧ (left = outputs ∨ ∃ b, left = outputs.release b) ∧
      c.Yields r.memory r.tally input.batch.items memory tally made ∧
      Buffer.records (held sink) = Buffer.records (held r.sink) ++ made := by
  obtain ⟨memory, tally, batch, hfills⟩ :=
    fills_of_blank c hitems input.batch r.memory r.tally
  obtain ⟨made, hyields, hmade⟩ := yields_of_fills hfills
  obtain ⟨sink, left, hdeliver, hsink, hleft, hrecords⟩ :=
    deliver_ok keeps (r := { r with outputs, memory, tally }) hopen room { out with batch }
  have hconvert := convert_of_fills (r := { r with outputs }) out hfills
  refine ⟨sink, left, memory, tally, made, ?_, hsink, hleft.imp_right fun h => ⟨_, h⟩, hyields, ?_⟩
  · simp only [handleOne, hacquire, hconvert, hdeliver]
  · rw [hrecords, hmade, hitems, List.nil_append]

/-- One batch is converted. -/
theorem handleOne_moves (lawful : c.Lawful showMemory showInput showOutput Valid)
    (keeps : Sink.Keeps isOpen held) {r : Relay S K σ α β n} (hopen : isOpen r.sink)
    (room : Sink.isFull r.sink = false) (hinputs : r.inputs.Ready) (houtputs : r.outputs.Ready)
    {input : Buffer α n} (hvalid : ∀ a ∈ input.batch.items, Valid a) :
    ∃ r', handleOne c r input = (r', .ok ()) ∧ r'.source = r.source ∧
      Moves c showMemory showOutput isOpen held r input.batch.items r' := by
  obtain ⟨out, outputs, hacquire, hitems, hready⟩ := houtputs.acquire
  obtain ⟨sink, left, memory, tally, made, hone, hsink, hleft, hyields, hrecords⟩ :=
    handleOne_yields (c := c) keeps hopen room hacquire hitems input
  obtain ⟨hmemory, htally, hmade⟩ := lawful.run_of_yields hyields hvalid
  have hready' : left.Ready := by
    rcases hleft with rfl | ⟨b, rfl⟩
    · exact hready
    · exact hready.release b
  refine ⟨_, hone, rfl, hsink, hinputs.release input, hready', hmemory, htally, ?_⟩
  rw [hrecords, List.map_append, hmade]

variable [Source S (Buffer α n)] {isOpenSource : S → Prop} {heldSource : S → List (Buffer α n)}

/-- A relay between open ends has nothing to do, or takes the next batch and goes on with it. -/
theorem handle_succ (keeps : Sink.Keeps isOpen held)
    (gives : Source.Gives isOpenSource heldSource) (c : Conversion σ α β) (budget : Nat)
    {r : Relay S K σ α β n} (hsource : isOpenSource r.source) (hopen : isOpen r.sink) :
    handle c r (budget + 1) = (r, .ok 0) ∨
    ∃ input source, Sink.isFull r.sink = false ∧
      heldSource r.source = input :: heldSource source ∧ isOpenSource source ∧
      handle c r (budget + 1) =
        match handleOne c { r with source } input with
        | (s, .error stop) => (s, .error stop)
        | (s, .ok ())      => ((handle c s budget).1, (handle c s budget).2.map (· + 1)) := by
  rw [handle, Stage.ensureOpen_ok keeps hopen]
  cases room : Sink.isFull r.sink with
  | true => exact .inl (by simp only [if_true])
  | false =>
      cases hheld : heldSource r.source with
      | nil =>
          obtain ⟨dry, hreceive⟩ := gives.receive_nil hsource hheld
          exact .inl (by simp [hreceive])
      | cons input more =>
          obtain ⟨source, hreceive, hsource', rfl⟩ := gives.receive hsource hheld
          refine .inr ⟨input, source, rfl, rfl, hsource', ?_⟩
          rcases hone : handleOne c { r with source } input with ⟨s, stop | ⟨⟩⟩ <;>
            simp only [Bool.false_eq_true, if_false, hreceive, hone]

/-- **Batches are converted** as long as there are any and the sink has room: what has been taken
from the source has been converted, and the rest is still there. -/
theorem handle_moves (lawful : c.Lawful showMemory showInput showOutput Valid)
    (keeps : Sink.Keeps isOpen held) (gives : Source.Gives isOpenSource heldSource) (budget : Nat)
    {r : Relay S K σ α β n} (hsource : isOpenSource r.source) (hopen : isOpen r.sink)
    (hinputs : r.inputs.Ready) (houtputs : r.outputs.Ready)
    (hvalid : ∀ a ∈ Buffer.records (heldSource r.source), Valid a) :
    ∃ r' handled as, handle c r budget = (r', .ok handled) ∧ isOpenSource r'.source ∧
      Buffer.records (heldSource r.source) = as ++ Buffer.records (heldSource r'.source) ∧
      Moves c showMemory showOutput isOpen held r as r' := by
  induction budget generalizing r with
  | zero => exact ⟨r, 0, [], rfl, hsource, rfl, .refl hopen hinputs houtputs⟩
  | succ budget ih =>
      rcases handle_succ keeps gives c budget hsource hopen with
        hnone | ⟨input, source, room, hheld, hsource', hsome⟩
      · exact ⟨r, 0, [], hnone, hsource, rfl, .refl hopen hinputs houtputs⟩
      · rw [hheld, Buffer.records_cons] at hvalid
        obtain ⟨s, hone, hsame, hmoves⟩ := handleOne_moves lawful keeps
          (r := { r with source }) hopen room hinputs houtputs
          fun a ha => hvalid a (List.mem_append_left _ ha)
        have hsame : s.source = source := hsame
        obtain ⟨t, handled, as, hhandle, hsource'', hrecords, hmoves'⟩ := ih
          (r := s) (hsame ▸ hsource') hmoves.isOpen hmoves.inputs hmoves.outputs
          (by rw [hsame]; exact fun a ha => hvalid a (List.mem_append_right _ ha))
        rw [hsame] at hrecords
        have hvalid' : ∀ a ∈ as, Valid a := fun a ha => hvalid a
          (List.mem_append_right _ (hrecords ▸ List.mem_append_left _ ha))
        refine ⟨t, handled + 1, input.batch.items ++ as, ?_, hsource'', ?_,
          .trans lawful hvalid' ⟨hmoves.isOpen, hmoves.inputs, hmoves.outputs, hmoves.memory,
            hmoves.tally, hmoves.records⟩ hmoves'⟩
        · rw [hsome, hone]
          simp only [hhandle]
          rfl
        · rw [hheld, Buffer.records_cons, hrecords, List.append_assoc]

end Relay

end Ais
