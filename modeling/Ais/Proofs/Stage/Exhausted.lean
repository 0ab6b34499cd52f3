import Ais.Proofs.Queue.Ring
import Ais.Proofs.Stage.Relay

/-!
# Relays — when the pool runs dry

A relay that returns has delivered whatever it took from its source (`handle_delivers`).  But it
takes a batch before it asks its pool for one to put the results in.  If the pool has none, the
relay breaks off, and the batch just taken goes back to its own pool: its records are lost, whatever
the relay is called with later.  Nothing else is: what came before has been converted, counted and
delivered, and the rest is still in the source (`handle_poolExhausted`).
-/

namespace Ais

/-- Every message is counted, with bits or without. -/
theorem dearmouring_counts (slot : Payload) (m : Message) :
    (dearmouring () .zero slot m).tally ≠ .zero := by
  simp only [dearmouring]
  split
  · show Tally.addEmptyPayload .zero ≠ .zero
    decide
  · show Tally.addPayload .zero ≠ .zero
    decide

namespace Relay

variable {S K σ α β : Type} {n : Nat} {c : Conversion σ α β} {isOpen : K → Prop}
  {held : K → List (Buffer β n)}

/-- From `r` to `r'` the records `as` have been converted, counted and delivered. -/
structure Delivers (c : Conversion σ α β) (isOpen : K → Prop) (held : K → List (Buffer β n))
    (r : Relay S K σ α β n) (as : List α) (r' : Relay S K σ α β n) : Prop where
  isOpen  : isOpen r'.sink
  outputs : r'.outputs.Clean
  records : ∃ out, c.Yields r.memory r.tally as r'.memory r'.tally out ∧
    Buffer.records (held r'.sink) = Buffer.records (held r.sink) ++ out

namespace Delivers

variable {r s t : Relay S K σ α β n} {as more : List α}

theorem refl (hopen : isOpen r.sink) (hclean : r.outputs.Clean) : Delivers c isOpen held r [] r :=
  ⟨hopen, hclean, [], .nil _ _, (List.append_nil _).symm⟩

theorem trans (h : Delivers c isOpen held r as s) (h' : Delivers c isOpen held s more t) :
    Delivers c isOpen held r (as ++ more) t := by
  obtain ⟨out, hyields, hrecords⟩ := h.records
  obtain ⟨out', hyields', hrecords'⟩ := h'.records
  refine ⟨h'.isOpen, h'.outputs, out ++ out', hyields.append hyields', ?_⟩
  rw [hrecords', hrecords, List.append_assoc]

end Delivers

variable [Inhabited β] [Sink K (Buffer β n)]

/-- A batch is converted and delivered whole where there is one for what comes out. -/
theorem handleOne_delivers (keeps : Sink.Keeps isOpen held) {r : Relay S K σ α β n}
    (hopen : isOpen r.sink) (room : Sink.isFull r.sink = false) (hclean : r.outputs.Clean)
    {out : Buffer β n} {outputs : Pool β n} (hacquire : r.outputs.acquire = .ok (out, outputs))
    (input : Buffer α n) :
    ∃ r', handleOne c r input = (r', .ok ()) ∧ r'.source = r.source ∧
      r'.inputs = r.inputs.release input ∧ Delivers c isOpen held r input.batch.items r' := by
  obtain ⟨hitems, hclean'⟩ := hclean.acquire hacquire
  obtain ⟨sink, left, memory, tally, made, hone, hsink, hleft, hyields, hrecords⟩ :=
    handleOne_yields (c := c) keeps hopen room hacquire hitems input
  have hclean'' : left.Clean := by
    rcases hleft with rfl | ⟨b, rfl⟩
    · exact hclean'
    · exact hclean'.release b
  exact ⟨_, hone, rfl, rfl, hsink, hclean'', made, hyields, hrecords⟩

/-- A batch is converted and delivered whole, or the pool is dry and nothing of it is. -/
theorem handleOne_cases (keeps : Sink.Keeps isOpen held) {r : Relay S K σ α β n}
    (hopen : isOpen r.sink) (room : Sink.isFull r.sink = false) (hclean : r.outputs.Clean)
    (input : Buffer α n) :
    (∃ r', handleOne c r input = (r', .ok ()) ∧ r'.source = r.source ∧
      Delivers c isOpen held r input.batch.items r') ∨
    r.outputs.spare = [] ∧ r.outputs.isExhausted = true ∧
      handleOne c r input = ({ r with inputs := r.inputs.release input },
        .error (.fault (.poolExhausted r.outputs.allocated))) := by
  cases hacquire : r.outputs.acquire with
  | error f =>
      obtain ⟨hspare, hexhausted, rfl⟩ := Pool.acquire_error hacquire
      exact .inr ⟨hspare, hexhausted, by simp only [handleOne, hacquire]⟩
  | ok lent =>
      obtain ⟨r', hone, hsource, -, hdelivers⟩ :=
        handleOne_delivers (c := c) keeps hopen room hclean hacquire input
      exact .inl ⟨r', hone, hsource, hdelivers⟩

variable [Source S (Buffer α n)] {isOpenSource : S → Prop} {heldSource : S → List (Buffer α n)}

/-- **A relay that returns has delivered what it took**: the batches that are no longer in the
source have been converted, counted and delivered, and have gone back to their pool. -/
theorem handle_delivers (keeps : Sink.Keeps isOpen held)
    (gives : Source.Gives isOpenSource heldSource) {r r' : Relay S K σ α β n} {budget handled : Nat}
    (hsource : isOpenSource r.source) (hopen : isOpen r.sink) (hclean : r.outputs.Clean)
    (h : handle c r budget = (r', .ok handled)) :
    ∃ done, heldSource r.source = done ++ heldSource r'.source ∧ isOpenSource r'.source ∧
      Delivers c isOpen held r (Buffer.records done) r' ∧ (r.inputs.Clean → r'.inputs.Clean) := by
  induction budget generalizing r handled with
  | zero =>
      cases h
      exact ⟨[], rfl, hsource, Delivers.refl hopen hclean, id⟩
  | succ budget ih =>
      rcases handle_succ keeps gives c budget hsource hopen with
        hnone | ⟨input, source, room, hheld, hsource', hsome⟩
      · cases hnone.symm.trans h
        exact ⟨[], rfl, hsource, Delivers.refl hopen hclean, id⟩
      rw [hsome] at h
      cases hacquire : r.outputs.acquire with
      | error f =>
          simp only [handleOne, hacquire] at h
          cases h
      | ok lent =>
          obtain ⟨out, outputs⟩ := lent
          obtain ⟨s, hone, hsame, hinputs, hdelivers⟩ := handleOne_delivers (c := c) keeps
            (r := { r with source }) hopen room hclean hacquire input
          have hsame : s.source = source := hsame
          rcases hhandle : handle c s budget with ⟨t, stop | handled'⟩ <;>
            simp only [hone, hhandle] at h <;> cases h
          obtain ⟨done, hbatches, hsource'', hdelivers', hclean'⟩ :=
            ih (hsame ▸ hsource') hdelivers.isOpen hdelivers.outputs hhandle
          rw [hsame] at hbatches
          refine ⟨input :: done, by rw [hheld, hbatches]; rfl, hsource'', ?_, fun hin => ?_⟩
          · rw [Buffer.records_cons]
            exact .trans ⟨hdelivers.isOpen, hdelivers.outputs, hdelivers.records⟩ hdelivers'
          · exact hclean' (hinputs ▸ hin.release input)

/-- **A relay whose pool runs dry loses the batch it has just taken, and nothing else**: the batches
before it have been delivered and counted, and those behind it are still in the source. -/
theorem handle_poolExhausted (keeps : Sink.Keeps isOpen held)
    (gives : Source.Gives isOpenSource heldSource) {r r' : Relay S K σ α β n} {budget k : Nat}
    (hsource : isOpenSource r.source) (hsink : Sink.isClosed r.sink = true ∨ isOpen r.sink)
    (hclean : r.outputs.Clean)
    (h : handle c r budget = (r', .error (.fault (.poolExhausted k)))) :
    ∃ done lost, heldSource r.source = done ++ lost :: heldSource r'.source ∧
      isOpenSource r'.source ∧ Delivers c isOpen held r (Buffer.records done) r' ∧
      r'.outputs.spare = [] ∧ r'.outputs.isExhausted = true ∧ k = r'.outputs.allocated := by
  induction budget generalizing r with
  | zero => cases h
  | succ budget ih =>
      rcases hsink with hclosed | hopen
      · simp only [handle, Stage.ensureOpen, hclosed, if_true] at h
        cases h
      rcases handle_succ keeps gives c budget hsource hopen with
        hnone | ⟨input, source, room, hheld, hsource', hsome⟩
      · cases hnone.symm.trans h
      rw [hsome] at h
      rcases handleOne_cases (c := c) keeps (r := { r with source }) hopen room hclean input with
        ⟨s, hone, hsame, hdelivers⟩ | ⟨hspare, hexhausted, hone⟩
      · -- this batch is delivered, and a later one is lost
        have hsame : s.source = source := hsame
        have hrun : handle c s budget = (r', .error (.fault (.poolExhausted k))) := by
          simp only [hone] at h
          rcases hhandle : handle c s budget with ⟨t, stop | handled⟩
          · rw [hhandle] at h
            exact h
          · rw [hhandle] at h
            cases h
        obtain ⟨done, lost, hbatches, hsource'', hdelivers', hrest⟩ :=
          ih (hsame ▸ hsource') (.inr hdelivers.isOpen) hdelivers.outputs hrun
        rw [hsame] at hbatches
        refine ⟨input :: done, lost, by rw [hheld, hbatches]; rfl, hsource'', ?_, hrest⟩
        rw [Buffer.records_cons]
        exact .trans ⟨hdelivers.isOpen, hdelivers.outputs, hdelivers.records⟩ hdelivers'
      · -- this batch is lost
        rw [hone] at h
        cases h
        exact ⟨[], input, hheld, hsource',
          ⟨hopen, hclean, [], .nil _ _, (List.append_nil _).symm⟩, hspare, hexhausted, rfl⟩

/-- A batch of one message. -/
def letter : Buffer Message 1 := ⟨0, ((Batch.empty Message 1).push? default).getD default⟩

/-- One batch waits, and every batch that there may be for the results is lent. -/
def starved : Relay (Channel (Buffer Message 1)) (Ledger (Buffer Payload 1)) Unit Message Payload 1 where
  source  := ⟨Ring.put ⟨Array.replicate 1 none, 0, 0, false⟩ letter, false⟩
  inputs  := ⟨[], 1, none⟩
  sink    := ⟨[]⟩
  outputs := ⟨[], 1, some 1⟩
  memory  := ()
  tally   := .zero

theorem starved_source : starved.source.IsOpen ∧ starved.source.contents = [letter] := by
  have hempty : Ring.create 1 = .ok (⟨Array.replicate 1 none, 0, 0, false⟩ : Ring (Buffer Message 1)) :=
    rfl
  have hput := (Ring.holds_create (by decide) hempty).1.put (by decide) letter
  exact Channel.isOpen_of_holds hput rfl rfl

theorem handle_starved : ∃ r', handle dearmouring starved 1 =
      (r', .error (.fault (.poolExhausted 1))) ∧
    ∃ done lost, starved.source.contents = done ++ lost :: r'.source.contents ∧
      r'.source.IsOpen ∧
      Delivers dearmouring (fun _ => True) Ledger.entries starved (Buffer.records done) r' ∧
      r'.outputs.spare = [] ∧ r'.outputs.isExhausted = true ∧ 1 = r'.outputs.allocated := by
  have h : handle dearmouring starved 1 =
      ((handle dearmouring starved 1).1, .error (.fault (.poolExhausted 1))) := rfl
  exact ⟨_, h, handle_poolExhausted Ledger.keeps Channel.gives starved_source.1 (.inr trivial)
    (fun _ h => absurd h List.not_mem_nil) h⟩

/-- The message is neither in the source any more, nor has it been counted. -/
theorem starved_loses : ∃ r', handle dearmouring starved 1 =
      (r', .error (.fault (.poolExhausted 1))) ∧
    ¬ ∃ done, starved.source.contents = done ++ r'.source.contents ∧
      Delivers dearmouring (fun _ => True) Ledger.entries starved (Buffer.records done) r' := by
  have h : handle dearmouring starved 1 =
      ((handle dearmouring starved 1).1, .error (.fault (.poolExhausted 1))) := rfl
  refine ⟨_, h, ?_⟩
  rintro ⟨done, hbatches, hdelivers⟩
  have hgone : (handle dearmouring starved 1).1.source.contents = [] := rfl
  rw [starved_source.2, hgone, List.append_nil] at hbatches
  obtain ⟨out, hyields, -⟩ := hdelivers.records
  rw [← hbatches] at hyields
  have hrecords : Buffer.records [letter] = [default] := rfl
  rw [hrecords] at hyields
  have hcounted : (handle dearmouring starved 1).1.tally = Tally.zero := rfl
  rw [hcounted] at hyields
  obtain ⟨slot, htally⟩ := hyields.tally_one
  exact dearmouring_counts slot default htally.symm

end Relay

end Ais
