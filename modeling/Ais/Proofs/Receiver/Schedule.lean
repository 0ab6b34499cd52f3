import Ais.Proofs.Queue.Ring
import Ais.Proofs.Receiver.Outcome
import Ais.Proofs.Stage.Intake
import Ais.Proofs.Stage.Relay
import Ais.Receiver

/-!
# Receiver — schedules

Whoever holds a receiver calls its stages in any order: bytes are taken in, sentences assembled,
messages unpacked, payloads taken out and given back (`Call`).  `Progress` is how far this has come.

What has come out and what is still to come are together the same after every call (`step_total`).
So when everything has come out, it is what one gets record by record, without queues and batches
(`reference`), whatever the order of the calls was: `schedule_independent`.
-/

namespace Ais.Receiver

variable {n : Nat}

/-- A call to a receiver. -/
inductive Call where
  /-- Offers the rest of the stream. -/
  | ingest
  | assemble (budget : Nat)
  | dearmour (budget : Nat)
  /-- Takes a batch of payloads. -/
  | pop
  /-- Gives one of the batches taken back. -/
  | release (k : Nat)

/-- How far a receiver has come with a stream. -/
structure Progress (n : Nat) where
  receiver : Receiver n
  /-- The bytes not yet taken. -/
  rest     : List UInt8
  /-- The payloads that have come out. -/
  popped   : List Payload
  /-- The batches of payloads not yet given back. -/
  held     : List (Buffer Payload n)

namespace Progress

/-- One call. -/
def step (p : Progress n) : Call → Progress n
  | .ingest =>
    match p.receiver.ingest p.rest with
    | (receiver, .ok taken) => { p with receiver, rest := p.rest.drop taken }
    | (receiver, .error _)  => { p with receiver }
  | .assemble budget => { p with receiver := (p.receiver.assemble budget).1 }
  | .dearmour budget => { p with receiver := (p.receiver.dearmour budget).1 }
  | .pop =>
    match p.receiver.takePayloads with
    | (receiver, .ok b)    =>
      { p with receiver, popped := p.popped ++ b.batch.items, held := p.held ++ [b] }
    | (receiver, .error _) => { p with receiver }
  | .release k =>
    match p.held[k]? with
    | some b => { p with receiver := p.receiver.releasePayloads b, held := p.held.eraseIdx k }
    | none   => p

/-- A schedule of calls. -/
def run (p : Progress n) (calls : List Call) : Progress n := calls.foldl step p

/-- Nothing more is taken in, and nothing is on its way. -/
structure IsDone (p : Progress n) : Prop where
  rest      : (p.receiver.ingest p.rest).2 = .ok 0
  sentences : p.receiver.sentences.ring.isEmpty = true
  messages  : p.receiver.messages.ring.isEmpty = true
  payloads  : p.receiver.payloads.ring.isEmpty = true

end Progress

/-- A receiver before the stream. -/
def offer (r : Receiver n) (bytes : List UInt8) : Progress n := ⟨r, bytes, [], []⟩

/-- What comes of a stream record by record: each of its sentences is read, given to one table, and
each message that is complete unpacked, unless it has no bits. -/
def reference (talkers : Talkers) (bytes : List UInt8) : List Payload × Tally :=
  let lines    := (Intake.lines talkers bytes).1
  let assembled := assembling.run .empty (Intake.sentences lines)
  let unpacked  := dearmouring.run () assembled.2.2
  (unpacked.2.2, Tally.addLines 0 lines + assembled.2.1 + unpacked.2.1)

namespace Progress

/-! ### What does not change -/

/-- The queues are open, the pools lend empty batches, and the sentences have been read. -/
structure Ready (p : Progress n) : Prop where
  sentences    : p.receiver.sentences.IsOpen
  messages     : p.receiver.messages.IsOpen
  payloads     : p.receiver.payloads.IsOpen
  sentencePool : p.receiver.sentencePool.Ready
  messagePool  : p.receiver.messagePool.Ready
  payloadPool  : p.receiver.payloadPool.Ready
  valid        : ∀ s ∈ Buffer.records p.receiver.sentences.contents, s.HasForm

/-- The lines still to be read. -/
def lines (p : Progress n) : List Intake.Line := (Intake.lines p.receiver.talkers p.rest).1

/-- What is still to come of what has been taken in and of the rest. -/
def coming (p : Progress n) : List (List UInt8 × Nat × Option UInt8) × Tally :=
  outcome p.receiver.assembly
    (Buffer.records p.receiver.sentences.contents ++ Intake.sentences p.lines)
    (Buffer.records p.receiver.messages.contents)

/-- What has come out and what is still to come. -/
def total (p : Progress n) : List (List UInt8 × Nat × Option UInt8) × Tally :=
  (p.popped.map (·.shown) ++
      (Buffer.records p.receiver.payloads.contents).map (·.shown) ++ p.coming.1,
    p.receiver.tally.records + (Tally.addLines 0 p.lines + p.coming.2).records)

/-! ### What one call does -/

variable {p : Progress n}

theorem hasForm_of_shown {ss ts : List Sentence} (h : ss.map (·.shown) = ts.map (·.shown))
    (hts : ∀ t ∈ ts, t.HasForm) : ∀ s ∈ ss, s.HasForm := by
  intro s hs
  have : s.shown ∈ ts.map (·.shown) := h ▸ List.mem_map_of_mem hs
  obtain ⟨t, ht, hshown⟩ := List.mem_map.mp this
  exact (hts t ht).of_shown hshown

theorem hasForm_of_mem_sentences {talkers : Talkers} {bytes : List UInt8} {s : Sentence}
    (h : s ∈ Intake.sentences (Intake.lines talkers bytes).1) : s.HasForm := by
  obtain ⟨line, hline, rfl⟩ := List.mem_filterMap.mp h
  exact Intake.hasForm_of_mem_lines hline

theorem Ready.coming_valid (h : p.Ready) :
    ∀ s ∈ Buffer.records p.receiver.sentences.contents ++ Intake.sentences p.lines, s.HasForm := by
  intro s hs
  rcases List.mem_append.mp hs with hs | hs
  · exact h.valid s hs
  · exact hasForm_of_mem_sentences hs

/-- Bytes that are taken in have been read, and the others are still to be. -/
theorem step_ingest (hn : 0 < n) (h : p.Ready) :
    (p.step .ingest).Ready ∧ (p.step .ingest).total = p.total := by
  obtain ⟨ls, j, rest, taken, hingest, htakes, -, hdrop, -⟩ :=
    Intake.ingest_takes Channel.keeps hn (i := p.receiver.intake) h.sentences h.sentencePool p.rest
  have hreceiver : p.receiver.ingest p.rest =
      (p.receiver.setIntake { j with tally := j.tally.addBytes taken }, .ok taken) := by
    rw [Receiver.ingest, hingest]
  have hstep : p.step .ingest =
      { p with
          receiver := p.receiver.setIntake { j with tally := j.tally.addBytes taken }
          rest } := by
    simp only [step, hreceiver, hdrop]
  rw [hstep]
  generalize hq : ({ p with
    receiver := p.receiver.setIntake { j with tally := j.tally.addBytes taken }
    rest } : Progress n) = q
  -- the lines read now are the first of those that were to come
  have hlines : p.lines = ls ++ q.lines := by
    rw [← hq]
    exact congrArg Prod.fst htakes.reads.lines_eq
  have hsentences : (Buffer.records q.receiver.sentences.contents).map (·.shown) =
      (Buffer.records p.receiver.sentences.contents ++ Intake.sentences ls).map (·.shown) := by
    rw [← hq, List.map_append]
    exact htakes.delivered
  have hcoming : (Buffer.records q.receiver.sentences.contents ++
        Intake.sentences q.lines).map (·.shown) =
      (Buffer.records p.receiver.sentences.contents ++ Intake.sentences p.lines).map (·.shown) := by
    rw [hlines, Intake.sentences_append, List.map_append, hsentences, ← List.map_append,
      List.append_assoc]
  have hvalid := hasForm_of_shown hcoming h.coming_valid
  refine ⟨?_, ?_⟩
  · refine ⟨hq ▸ htakes.isOpen, hq ▸ h.messages, hq ▸ h.payloads, hq ▸ htakes.ready,
      hq ▸ h.messagePool, hq ▸ h.payloadPool, fun s hs => hvalid s (List.mem_append_left _ hs)⟩
  · have hcoming : q.coming = p.coming := by
      refine (outcome_congr ?_ hvalid hcoming ?_).trans rfl
      · rw [← hq]
        rfl
      · rw [← hq]
        rfl
    have htally : q.receiver.tally.records =
        p.receiver.tally.records + (Tally.addLines 0 ls).records := by
      rw [← Tally.records_add, ← Tally.addLines_eq, ← hq]
      show (j.tally.addBytes taken).records = _
      rw [Tally.records_addBytes, htakes.tally]
      rfl
    have hpayloads : q.popped = p.popped ∧ q.receiver.payloads = p.receiver.payloads := by
      rw [← hq]
      exact ⟨rfl, rfl⟩
    rw [total, total, hcoming, hpayloads.1, hpayloads.2, htally, hlines, Tally.addLines_append,
      Tally.addLines_eq (Tally.addLines 0 ls)]
    simp only [Tally.records_add, add_assoc]

/-- Sentences that are assembled are messages then, and the others are still to be. -/
theorem step_assemble (h : p.Ready) (budget : Nat) :
    (p.step (.assemble budget)).Ready ∧ (p.step (.assemble budget)).total = p.total := by
  obtain ⟨r, handled, as, hhandle, hopen, hsplit, hmoves⟩ := Relay.handle_moves assembling_lawful
    Channel.keeps Channel.gives budget (r := p.receiver.assembler) h.sentences h.messages
    h.sentencePool h.messagePool h.valid
  have hstep : p.step (.assemble budget) = { p with receiver := p.receiver.setAssembler r } := by
    simp only [step, assemble, hhandle]
  rw [hstep]
  generalize hq : ({ p with receiver := p.receiver.setAssembler r } : Progress n) = q
  have hsplit : Buffer.records p.receiver.sentences.contents =
      as ++ Buffer.records q.receiver.sentences.contents := hq ▸ hsplit
  have hlines : q.lines = p.lines := by rw [← hq]; rfl
  refine ⟨?_, ?_⟩
  · refine ⟨hq ▸ hopen, hq ▸ hmoves.isOpen, hq ▸ h.payloads, hq ▸ hmoves.inputs,
      hq ▸ hmoves.outputs, hq ▸ h.payloadPool, fun s hs => h.valid s ?_⟩
    rw [hsplit]
    exact List.mem_append_right _ hs
  · have hvalid := h.coming_valid
    rw [hsplit, List.append_assoc] at hvalid
    have hmessages : (Buffer.records q.receiver.messages.contents).map (·.shown) =
        (Buffer.records p.receiver.messages.contents ++
          (assembling.run p.receiver.assembly as).2.2).map (·.shown) := by
      rw [List.map_append, ← hq]
      exact hmoves.records
    have hassembly : q.receiver.assembly.shown =
        (assembling.run p.receiver.assembly as).1.shown := by
      rw [← hq]
      exact hmoves.memory
    -- in the queue stand used records, which show what new ones would
    have hafter : q.coming = outcome (assembling.run p.receiver.assembly as).1
        (Buffer.records q.receiver.sentences.contents ++ Intake.sentences p.lines)
        (Buffer.records p.receiver.messages.contents ++
          (assembling.run p.receiver.assembly as).2.2) := by
      rw [coming, hlines]
      exact outcome_congr hassembly (fun s hs => hvalid s (List.mem_append_right _ hs)) rfl
        hmessages
    have hbefore : p.coming =
        (q.coming.1, (assembling.run p.receiver.assembly as).2.1 + q.coming.2) := by
      rw [hafter, coming, hsplit, List.append_assoc, outcome_assembled]
    have htally : q.receiver.tally =
        p.receiver.tally + (assembling.run p.receiver.assembly as).2.1 := by
      rw [← hq]
      exact hmoves.tally
    have hpayloads : q.popped = p.popped ∧ q.receiver.payloads = p.receiver.payloads := by
      rw [← hq]
      exact ⟨rfl, rfl⟩
    rw [total, total, hbefore, hlines, hpayloads.1, hpayloads.2, htally]
    simp only [Tally.records_add, add_assoc, add_left_comm]

/-- Messages that are unpacked are payloads then, and the others are still to be. -/
theorem step_dearmour (h : p.Ready) (budget : Nat) :
    (p.step (.dearmour budget)).Ready ∧ (p.step (.dearmour budget)).total = p.total := by
  obtain ⟨r, handled, ms, hhandle, hopen, hsplit, hmoves⟩ := Relay.handle_moves dearmouring_lawful
    Channel.keeps Channel.gives budget (r := p.receiver.dearmourer) h.messages h.payloads
    h.messagePool h.payloadPool (fun _ _ => trivial)
  have hstep : p.step (.dearmour budget) = { p with receiver := p.receiver.setDearmourer r } := by
    simp only [step, dearmour, hhandle]
  rw [hstep]
  generalize hq : ({ p with receiver := p.receiver.setDearmourer r } : Progress n) = q
  have hsplit : Buffer.records p.receiver.messages.contents =
      ms ++ Buffer.records q.receiver.messages.contents := hq ▸ hsplit
  have hsentences : q.receiver.sentences = p.receiver.sentences := by rw [← hq]; rfl
  have hlines : q.lines = p.lines := by rw [← hq]; rfl
  refine ⟨?_, ?_⟩
  · refine ⟨hq ▸ h.sentences, hq ▸ hopen, hq ▸ hmoves.isOpen, hq ▸ h.sentencePool,
      hq ▸ hmoves.inputs, hq ▸ hmoves.outputs, ?_⟩
    rw [hsentences]
    exact h.valid
  · have hbefore : p.coming = ((dearmouring.run () ms).2.2.map (·.shown) ++ q.coming.1,
        (dearmouring.run () ms).2.1 + q.coming.2) := by
      rw [coming, hsplit, outcome_unpacked, coming, hsentences, hlines, ← hq]
      rfl
    have hpayloads : (Buffer.records q.receiver.payloads.contents).map (·.shown) =
        (Buffer.records p.receiver.payloads.contents).map (·.shown) ++
          (dearmouring.run () ms).2.2.map (·.shown) := by
      rw [← hq]
      exact hmoves.records
    have htally : q.receiver.tally = p.receiver.tally + (dearmouring.run () ms).2.1 := by
      rw [← hq]
      exact hmoves.tally
    have hpopped : q.popped = p.popped := by rw [← hq]
    rw [total, total, hbefore, hlines, hpopped, hpayloads, htally]
    simp only [Tally.records_add, add_assoc, add_left_comm, List.append_assoc]

/-- Payloads that are taken have come out. -/
theorem step_pop (h : p.Ready) : (p.step .pop).Ready ∧ (p.step .pop).total = p.total := by
  cases hcontents : p.receiver.payloads.contents with
  | nil =>
      obtain ⟨dry, hpop⟩ := h.payloads.pop_nil hcontents
      have hstep : p.step .pop = p := by simp only [step, takePayloads, hpop]
      rw [hstep]
      exact ⟨h, rfl⟩
  | cons b more =>
      obtain ⟨payloads, hpop, hopen, hmore⟩ := h.payloads.pop hcontents
      have hstep : p.step .pop =
          ⟨{ p.receiver with payloads }, p.rest, p.popped ++ b.batch.items, p.held ++ [b]⟩ := by
        simp only [step, takePayloads, hpop]
      rw [hstep]
      refine ⟨⟨h.sentences, h.messages, hopen, h.sentencePool, h.messagePool, h.payloadPool,
        h.valid⟩, ?_⟩
      simp only [total, coming, lines, hmore, hcontents, Buffer.records_cons, List.map_append,
        List.append_assoc]

/-- Batches that are given back are empty. -/
theorem step_release (h : p.Ready) (k : Nat) :
    (p.step (.release k)).Ready ∧ (p.step (.release k)).total = p.total := by
  cases hk : p.held[k]? with
  | none =>
      have hstep : p.step (.release k) = p := by simp only [step, hk]
      rw [hstep]
      exact ⟨h, rfl⟩
  | some b =>
      have hstep : p.step (.release k) =
          ⟨p.receiver.releasePayloads b, p.rest, p.popped, p.held.eraseIdx k⟩ := by
        simp only [step, hk]
      rw [hstep]
      refine ⟨⟨h.sentences, h.messages, h.payloads, h.sentencePool, h.messagePool,
        h.payloadPool.release b, h.valid⟩, ?_⟩
      simp only [total, coming, lines, releasePayloads]

/-- **What has come out and what is still to come are together the same after every call.** -/
theorem step_total (hn : 0 < n) (h : p.Ready) (call : Call) :
    (p.step call).Ready ∧ (p.step call).total = p.total := by
  cases call with
  | ingest => exact step_ingest hn h
  | assemble budget => exact step_assemble h budget
  | dearmour budget => exact step_dearmour h budget
  | pop => exact step_pop h
  | release k => exact step_release h k

theorem run_total (hn : 0 < n) (h : p.Ready) (calls : List Call) :
    (p.run calls).Ready ∧ (p.run calls).total = p.total := by
  induction calls generalizing p with
  | nil => exact ⟨h, rfl⟩
  | cons call calls ih =>
      obtain ⟨hready, htotal⟩ := step_total hn h call
      obtain ⟨hready', htotal'⟩ := ih hready
      exact ⟨hready', htotal'.trans htotal⟩

/-! ### The end -/

/-- Where nothing more is taken in and nothing is on its way, nothing is to come. -/
theorem IsDone.total_eq (hdone : p.IsDone) (hn : 0 < n) (h : p.Ready) :
    p.total = (p.popped.map (·.shown), p.receiver.tally.records) := by
  have hsentences := h.sentences.isEmpty_iff.mp hdone.sentences
  have hmessages := h.messages.isEmpty_iff.mp hdone.messages
  have hpayloads := h.payloads.isEmpty_iff.mp hdone.payloads
  have hlines : p.lines = [] := by
    have room := h.sentences.isFull_of_nil hsentences
    exact congrArg Prod.fst (Intake.lines_of_none_taken Channel.keeps hn (i := p.receiver.intake)
      h.sentences h.sentencePool.clean room hdone.rest)
  have hcoming : p.coming = ([], 0) := by
    rw [coming, hsentences, hmessages, hlines]
    rfl
  rw [total, hpayloads, hlines, hcoming, Tally.addLines]
  simp

end Progress

/-! ### The whole schedule -/

/-- Where the capacities are powers of two there is a receiver with open and empty queues, and
nothing else has happened. -/
theorem create_ok (talkers : Talkers) {capacity : PerChannel Nat}
    (limit : PerChannel (Option Nat))
    (h : ∀ c ∈ [capacity.sentences, capacity.messages, capacity.payloads],
      isPowerOfTwo c = true ∧ c < 2 ^ 64) :
    ∃ (sentences : Link Sentence n) (messages : Link Message n) (payloads : Link Payload n),
      create n talkers capacity limit = .ok ⟨talkers, sentences, messages, payloads,
        .empty limit.sentences, .empty limit.messages, .empty limit.payloads, .empty, .zero⟩ ∧
      (sentences.IsOpen ∧ sentences.contents = []) ∧ (messages.IsOpen ∧ messages.contents = []) ∧
      payloads.IsOpen ∧ payloads.contents = [] := by
  simp only [List.forall_mem_cons, List.not_mem_nil, false_implies, implies_true, and_true] at h
  obtain ⟨⟨hs, hs'⟩, ⟨hm, hm'⟩, hp, hp'⟩ := h
  obtain ⟨sentences, hsentences, hsopen⟩ := Channel.create_ok hs hs'
  obtain ⟨messages, hmessages, hmopen⟩ := Channel.create_ok hm hm'
  obtain ⟨payloads, hpayloads, hpopen⟩ := Channel.create_ok hp hp'
  exact ⟨sentences, messages, payloads, by rw [create, hsentences, hmessages, hpayloads]; rfl,
    hsopen, hmopen, hpopen⟩

/-- Before the first call, what is to come is what comes of the stream record by record. -/
theorem create_offer (talkers : Talkers) {capacity : PerChannel Nat}
    (h : ∀ c ∈ [capacity.sentences, capacity.messages, capacity.payloads],
      isPowerOfTwo c = true ∧ c < 2 ^ 64) :
    ∃ r : Receiver n, create n talkers capacity ⟨none, none, none⟩ = .ok r ∧
      ∀ bytes, (r.offer bytes).Ready ∧ (r.offer bytes).total =
        ((reference talkers bytes).1.map (·.shown), (reference talkers bytes).2.records) := by
  obtain ⟨sentences, messages, payloads, hcreate, ⟨hsopen, hsnil⟩, ⟨hmopen, hmnil⟩, hpopen, hpnil⟩ :=
    create_ok talkers ⟨none, none, none⟩ h
  refine ⟨_, hcreate, fun bytes => ⟨?_, ?_⟩⟩
  · exact ⟨hsopen, hmopen, hpopen, Pool.ready_empty, Pool.ready_empty, Pool.ready_empty,
      fun s hs => by rw [offer, hsnil] at hs; cases hs⟩
  · have hzero : Tally.zero.records = 0 := rfl
    simp only [Progress.total, Progress.coming, Progress.lines, offer, hsnil, hmnil, hpnil,
      Buffer.records_nil, List.map_nil, List.nil_append, hzero, zero_add, outcome, reference,
      add_assoc]

/-- **The order of the calls does not matter**: once a stream has been taken in and all queues are
empty, the payloads that have come out are those of the stream record by record, in their order,
and as much has been counted. -/
theorem schedule_independent (hn : 0 < n) (talkers : Talkers) (capacity : PerChannel Nat)
    (h : ∀ c ∈ [capacity.sentences, capacity.messages, capacity.payloads],
      isPowerOfTwo c = true ∧ c < 2 ^ 64) :
    ∃ r : Receiver n, create n talkers capacity ⟨none, none, none⟩ = .ok r ∧
      ∀ bytes calls, ((r.offer bytes).run calls).IsDone →
        ((r.offer bytes).run calls).popped.map (·.shown) =
          (reference talkers bytes).1.map (·.shown) ∧
        ((r.offer bytes).run calls).receiver.tally.records =
          (reference talkers bytes).2.records := by
  obtain ⟨r, hcreate, hoffer⟩ := create_offer talkers h
  refine ⟨r, hcreate, ?_⟩
  intro bytes calls hdone
  obtain ⟨hready, hstart⟩ := hoffer bytes
  obtain ⟨hready', hrun⟩ := Progress.run_total hn hready calls
  have hend := hdone.total_eq hn hready'
  exact Prod.mk.inj (hend.symm.trans (hrun.trans hstart))

/-- A message of two sentences and one of a single sentence between them, in three batches; the
first batch of payloads comes out while sentences are on their way, and is given back. -/
theorem three_batches_scheduled :
    let bytes := Ascii.ofString
      "AIVDM,2,1,3,A,w,0*61\r\n!AIVDM,1,1,,A,w0h,2*0B\r\ngarbage\nAIVDM,2,2,3,B,0h,2*4C\n"
    let calls : List Call := [.ingest, .assemble 1, .ingest, .assemble 4, .dearmour 1, .ingest,
      .pop, .assemble 1, .release 0, .dearmour 2, .pop]
    ∃ r : Receiver 1, create 1 .any ⟨1, 1, 1⟩ ⟨none, none, none⟩ = .ok r ∧
      ((r.offer bytes).run calls).IsDone ∧
      ((r.offer bytes).run calls).popped.map (·.shown) =
        (reference .any bytes).1.map (·.shown) ∧
      ((r.offer bytes).run calls).receiver.tally.records = (reference .any bytes).2.records := by
  intro bytes calls
  obtain ⟨r, hcreate, hall⟩ := schedule_independent Nat.one_pos .any ⟨1, 1, 1⟩ (by decide)
  have hdone : ((r.offer bytes).run calls).IsDone := by
    cases hcreate
    exact ⟨by decide +kernel, by decide +kernel, by decide +kernel, by decide +kernel⟩
  exact ⟨r, hcreate, hdone, hall bytes calls hdone⟩

end Ais.Receiver
