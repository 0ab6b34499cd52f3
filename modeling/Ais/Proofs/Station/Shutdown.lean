import Ais.Proofs.Stage.Dry
import Ais.Proofs.Station.Conveying

/-!
# Station — nothing is stranded at shutdown

The threads of a station are at its channels at the same time; an interleaving of their steps is a
list of acts.  Beside the station a `Journal` is kept of the records that were put into each of the
three channels.  Every act keeps what the two workers convey and know (`Flowing`), as long as nobody
but the last worker closes the payloads and neither worker finds its pool exhausted.

So a worker that leaves has converted everything that was ever put into its source, and handed it
on; and when the channel of payloads is closed and a consumer finds nothing more in it, it has got
every payload of every sentence that was ever taken in: `nothing_stranded`.
-/

namespace Ais

open Receiver (queued arrived arrived_eq arrived_nil arrived_self)

variable {n : Nat}

namespace Feeder

variable {f g : Feeder n} {i j : Intake (Link Sentence n) n}

/-- What the feeder puts into its channel stands behind what was there, and was read. -/
theorem Step.sink_queued (h : Step f i g j) (hfits : f.Fits) :
    queued j.sink = queued i.sink ++ arrived i.sink j.sink ∧
      ∀ s ∈ arrived i.sink j.sink, s.HasForm := by
  cases h with
  | sends _ h =>
      rw [arrived_eq h.queued_eq]
      exact ⟨h.queued_eq, hfits⟩
  | _ =>
      refine ⟨Receiver.queued_arrived_self _, fun s hs => ?_⟩
      rw [show arrived _ _ = [] from Receiver.arrived_self _] at hs
      cases hs

/-- A closed channel stays as it is. -/
theorem Step.sink_closed (h : Step f i g j) (hclosed : i.sink.ring.closed = true) :
    j.sink.ring.closed = true ∧ j.sink.contents = i.sink.contents := by
  cases h with
  | sends hopen =>
      rw [hclosed] at hopen
      cases hopen
  | _ => exact ⟨hclosed, rfl⟩

end Feeder

/-- The records that have been put into the channels of a station. -/
structure Journal where
  sentences : List Sentence
  messages  : List Message
  payloads  : List Payload

namespace Station

/-- What is put into the channels between two states of a station. -/
def record (j : Journal) (s s' : Station n) : Journal where
  sentences := j.sentences ++ arrived s.sentences s'.sentences
  messages  := j.messages ++ arrived s.messages s'.messages
  payloads  := j.payloads ++ arrived s.payloads s'.payloads

/-- The journal `j`, carried on through the acts. -/
def journalFrom (s : Station n) (j : Journal) : List Act → Journal
  | []        => j
  | a :: acts => (s.act a).journalFrom (record j s (s.act a)) acts

/-- What the acts put into the channels. -/
def journal (s : Station n) (acts : List Act) : Journal := s.journalFrom ⟨[], [], []⟩ acts

theorem record_none (j : Journal) {s s' : Station n}
    (hsentences : arrived s.sentences s'.sentences = [])
    (hmessages : arrived s.messages s'.messages = [])
    (hpayloads : arrived s.payloads s'.payloads = []) : record j s s' = j := by
  simp only [record, hsentences, hmessages, hpayloads, List.append_nil]

theorem journalFrom_append (s : Station n) (j : Journal) (acts more : List Act) :
    s.journalFrom j (acts ++ more) = (s.run acts).journalFrom (s.journalFrom j acts) more := by
  induction acts generalizing s j with
  | nil            => rfl
  | cons a acts ih => exact ih (s.act a) _

/-! ### What every act keeps -/

/-- Both workers convey what is put into their sources and know what they have seen, and what came
out of the payloads was put in. -/
structure Flowing (s : Station n) (j : Journal) : Prop where
  joinerKnows : s.joiner.phase.Knows s.exhausted s.assembler
  openerKnows : s.opener.phase.Knows s.exhausted s.dearmourer
  valid       : ∀ t ∈ j.sentences, t.HasForm
  joined      : s.joiner.phase.Conveys assembling .empty Assembly.shown Message.shown j.sentences
    j.messages s.assembler
  opened      : s.opener.phase.Conveys dearmouring () (fun _ => ()) Payload.shown j.messages
    j.payloads s.dearmourer
  taken       : j.payloads = s.received.reverse.flatten ++ queued s.payloads
  kept        : s.payloads.abandoned = false

namespace Flowing

variable {s s' : Station n} {j : Journal} {a : Act}

/-- What an act records, by what it puts into the channels. -/
theorem of_arrived {as : List Sentence} {ms : List Message} {ps : List Payload}
    (hsentences : arrived s.sentences s'.sentences = as)
    (hmessages : arrived s.messages s'.messages = ms)
    (hpayloads : arrived s.payloads s'.payloads = ps)
    (h : s'.Flowing ⟨j.sentences ++ as, j.messages ++ ms, j.payloads ++ ps⟩) :
    s'.Flowing (record j s s') := by
  subst hsentences hmessages hpayloads
  exact h

/-- An act that puts nothing into a channel records nothing. -/
theorem of_none (hsentences : arrived s.sentences s'.sentences = [])
    (hmessages : arrived s.messages s'.messages = [])
    (hpayloads : arrived s.payloads s'.payloads = []) (h : s'.Flowing j) :
    s'.Flowing (record j s s') := by
  rw [record_none j hsentences hmessages hpayloads]
  exact h

/-- **Every act keeps the flow**, if it does not close the payloads and no worker finds its pool
exhausted. -/
theorem step (h : s.Flowing j) (htidy : s.Tidy) (hstep : Step s a s') (ha : a ≠ .closeOutput)
    (hjoiner : ∀ k, s'.joiner.phase.fault? ≠ some (.poolExhausted k))
    (hopener : ∀ k, s'.opener.phase.fault? ≠ some (.poolExhausted k)) :
    s'.Flowing (record j s s') := by
  cases hstep with
  | idles => exact of_none (arrived_self _) (arrived_self _) (arrived_self _) h
  | offers | releases =>
      exact of_none (arrived_self _) (arrived_self _) (arrived_self _) { h with }
  | feeds hfeed =>
      obtain ⟨hqueued, hform⟩ := hfeed.sink_queued htidy.feeder
      refine of_arrived rfl (arrived_self _) (arrived_self _) ?_
      simp only [List.append_nil]
      exact { h with
        joinerKnows := h.joinerKnows.mono id hfeed.sink_closed rfl
        valid       := fun t ht => (List.mem_append.mp ht).elim (h.valid t) (hform t)
        joined      := h.joined.feed hqueued rfl }
  | exhausts =>
      exact of_none (arrived_self _) (arrived_self _) (arrived_self _) { h with
        joinerKnows := h.joinerKnows.mono (fun _ => rfl) (fun h => ⟨h, rfl⟩) rfl
        openerKnows := h.openerKnows.mono (fun _ => rfl) (fun h => ⟨h, rfl⟩) rfl }
  | closesInput =>
      exact of_none (arrived_self _) (arrived_self _) (arrived_self _) { h with
        joinerKnows := h.joinerKnows.mono id (fun _ => ⟨rfl, rfl⟩) rfl }
  | closesOutput => exact absurd rfl ha
  | @joins w r hjoin =>
      have hknows := hjoin.knows h.joinerKnows hjoiner
      have hjoined := hjoin.conveys assembling_lawful h.valid hknows.fault_eq_none h.joined
        htidy.joining
      refine of_arrived hjoin.source_arrived rfl (arrived_self _) ?_
      simp only [List.append_nil]
      exact { h with
        joinerKnows := hknows
        openerKnows := h.openerKnows.mono id hjoin.sink_closed rfl
        joined      := hjoined
        opened      := h.opened.feed hjoin.sink_queued rfl }
  | @dearms w r hdearm =>
      have hknows := hdearm.knows h.openerKnows hopener
      have hopened := hdearm.conveys dearmouring_lawful (fun _ _ => trivial) hknows.fault_eq_none
        h.opened htidy.opening
      refine of_arrived (arrived_self _) hdearm.source_arrived rfl ?_
      simp only [List.append_nil]
      exact { h with
        joinerKnows :=
          h.joinerKnows.mono id (fun h => ⟨h, rfl⟩) (hdearm.source_closed h.openerKnows)
        openerKnows := hknows
        opened      := hopened
        taken       := by
          have hqueued : queued r.sink = queued s.payloads ++ arrived s.payloads r.sink :=
            hdearm.sink_queued
          show j.payloads ++ arrived s.payloads r.sink =
            s.received.reverse.flatten ++ queued r.sink
          rw [hqueued, h.taken, List.append_assoc]
        kept        := hdearm.sink_abandoned.trans h.kept }
  | @takes b payloads hgrip hloses =>
      refine of_none (arrived_self _) (arrived_self _) hloses.arrived_eq { h with
        openerKnows := h.openerKnows.mono id (fun h => ⟨h, rfl⟩) hloses.closed
        taken       := ?_
        kept        := hloses.abandoned.trans h.kept }
      show j.payloads = (b.batch.items :: s.received).reverse.flatten ++ queued payloads
      rw [h.taken, hloses.queued_eq]
      simp

/-- A worker that failed has failed for good. -/
theorem fault_of_step (hstep : Step s a s') :
    (∀ f, s.joiner.phase.fault? = some f → s'.joiner.phase.fault? = some f) ∧
      ∀ f, s.opener.phase.fault? = some f → s'.opener.phase.fault? = some f := by
  cases hstep with
  | joins hjoin => exact ⟨fun _ h => hjoin.fault h, fun _ h => h⟩
  | dearms hdearm => exact ⟨fun _ h => h, fun _ h => hdearm.fault h⟩
  | _ => exact ⟨fun _ h => h, fun _ h => h⟩

theorem fault_of_run (htidy : s.Tidy) (acts : List Act) :
    (∀ f, s.joiner.phase.fault? = some f → (s.run acts).joiner.phase.fault? = some f) ∧
      ∀ f, s.opener.phase.fault? = some f → (s.run acts).opener.phase.fault? = some f := by
  induction acts generalizing s with
  | nil            => exact ⟨fun _ h => h, fun _ h => h⟩
  | cons a acts ih =>
      obtain ⟨hjoiner, hopener⟩ := fault_of_step (htidy.act_step a)
      obtain ⟨hjoiner', hopener'⟩ := ih (htidy.act a)
      exact ⟨fun f h => hjoiner' f (hjoiner f h), fun f h => hopener' f (hopener f h)⟩

/-- **The flow is kept by every run** in which nobody closes the payloads from outside and no worker
finds its pool exhausted. -/
theorem run (h : s.Flowing j) (htidy : s.Tidy) {acts : List Act} (hacts : .closeOutput ∉ acts)
    (hjoiner : ∀ k, (s.run acts).joiner.phase.fault? ≠ some (.poolExhausted k))
    (hopener : ∀ k, (s.run acts).opener.phase.fault? ≠ some (.poolExhausted k)) :
    (s.run acts).Flowing (s.journalFrom j acts) := by
  induction acts generalizing s j with
  | nil            => exact h
  | cons a acts ih =>
      obtain ⟨hjoiner', hopener'⟩ := fault_of_run (htidy.act a) acts
      have hstep := h.step htidy (htidy.act_step a) (Ne.symm (List.ne_of_not_mem_cons hacts))
        (fun k hk => hjoiner k (hjoiner' _ hk)) (fun k hk => hopener k (hopener' _ hk))
      exact ih hstep (htidy.act a) (List.not_mem_of_not_mem_cons hacts) hjoiner hopener

end Flowing

theorem Blank.flowing {s : Station n} {settings : Settings} {grip : Option Nat}
    (h : s.Blank settings grip) : s.Flowing ⟨[], [], []⟩ where
  joinerKnows := by rw [h.joiner]; exact h.messages.closed
  openerKnows := by rw [h.opener]; exact h.payloads.closed
  valid       := fun _ ht => absurd ht List.not_mem_nil
  joined      := by
    have hqueued : queued s.sentences = [] := by rw [queued, h.sentences.contents]; rfl
    rw [h.joiner]
    exact ⟨[], hqueued.symm, congrArg Assembly.shown h.assembly, rfl⟩
  opened      := by
    have hqueued : queued s.messages = [] := by rw [queued, h.messages.contents]; rfl
    rw [h.opener]
    exact ⟨[], hqueued.symm, rfl, rfl⟩
  taken       := by
    rw [queued, h.payloads.contents, h.received]
    rfl
  kept        := h.payloads.abandoned

/-! ### When all is closed -/

/-- All three channels are closed. -/
structure Closed (s : Station n) : Prop where
  sentences : s.sentences.ring.closed = true
  messages  : s.messages.ring.closed = true
  payloads  : s.payloads.ring.closed = true

namespace Closed

variable {s s' : Station n} {j : Journal} {a : Act}

/-- What is closed stays closed, and nothing is put in. -/
theorem step (h : s.Closed) (hstep : Step s a s') : s'.Closed ∧ record j s s' = j := by
  cases hstep with
  | idles | offers | exhausts | releases =>
      exact ⟨{ h with }, record_none j (arrived_self _) (arrived_self _) (arrived_self _)⟩
  | closesInput =>
      exact ⟨{ h with sentences := rfl },
        record_none j (arrived_self _) (arrived_self _) (arrived_self _)⟩
  | closesOutput =>
      exact ⟨{ h with payloads := rfl },
        record_none j (arrived_self _) (arrived_self _) (arrived_self _)⟩
  | feeds hfeed =>
      obtain ⟨hclosed, hcontents⟩ := hfeed.sink_closed h.sentences
      exact ⟨{ h with sentences := hclosed },
        record_none j (arrived_nil hcontents) (arrived_self _) (arrived_self _)⟩
  | joins hjoin =>
      obtain ⟨hclosed, hcontents⟩ := hjoin.sink_closed h.messages
      exact ⟨{ h with sentences := hjoin.source_stays h.sentences, messages := hclosed },
        record_none j hjoin.source_arrived (arrived_nil hcontents) (arrived_self _)⟩
  | dearms hdearm =>
      obtain ⟨hclosed, hcontents⟩ := hdearm.sink_closed h.payloads
      exact ⟨{ h with messages := hdearm.source_stays h.messages, payloads := hclosed },
        record_none j (arrived_self _) hdearm.source_arrived (arrived_nil hcontents)⟩
  | takes _ hloses =>
      exact ⟨{ h with payloads := hloses.closed.trans h.payloads },
        record_none j (arrived_self _) (arrived_self _) hloses.arrived_eq⟩

/-- **Nothing is put into closed channels.** -/
theorem journalFrom (h : s.Closed) (htidy : s.Tidy) (acts : List Act) :
    s.journalFrom j acts = j := by
  induction acts generalizing s j with
  | nil            => rfl
  | cons a acts ih =>
      obtain ⟨hclosed, hrecord⟩ := h.step (j := j) (htidy.act_step a)
      rw [Station.journalFrom, hrecord]
      exact ih hclosed (htidy.act a)

end Closed

/-! ### The shutdown -/

/-- Nothing is stranded, however far the acts have come.

* A worker whose calls came to their end without a fault has drained its source, and handed on what
  came of all that was ever put into it.
* When the payloads are closed, both workers have come to that end, and nothing is put anywhere any
  more.
* When a consumer is told that they are closed, it has got all that were put in, and these are what
  comes of all the sentences. -/
structure Settled (s : Station n) (acts : List Act) : Prop where
  joined   : (s.run acts).joiner.phase.result? = some (.ok ()) →
    Phase.Finished assembling .empty Assembly.shown Message.shown (s.run acts).exhausted
      (s.journal acts).sentences (s.journal acts).messages (s.run acts).assembler
  opened   : (s.run acts).opener.phase.result? = some (.ok ()) →
    Phase.Finished dearmouring () (fun _ => ()) Payload.shown (s.run acts).exhausted
      (s.journal acts).messages (s.journal acts).payloads (s.run acts).dearmourer
  closed   : (s.run acts).payloads.ring.closed = true →
    (s.run acts).joiner.phase.result? = some (.ok ()) ∧
    (s.run acts).opener.phase.result? = some (.ok ()) ∧
    ∀ more, s.journal (acts ++ more) = s.journal acts
  received : (s.run acts).takePayloads.2 = .error .closed →
    (s.run acts).payloads.ring.closed = true ∧
    (s.run acts).received.reverse.flatten = (s.journal acts).payloads ∧
    (s.run acts).received.reverse.flatten.map Payload.shown =
      (Receiver.outcome .empty (s.journal acts).sentences []).1

namespace Flowing

variable {s : Station n} {j : Journal}

theorem joined_finished (h : s.Flowing j) (hjoined : s.joiner.phase.result? = some (.ok ())) :
    Phase.Finished assembling .empty Assembly.shown Message.shown s.exhausted j.sentences j.messages
      s.assembler := h.joined.finished h.joinerKnows hjoined

theorem opened_finished (h : s.Flowing j) (hopened : s.opener.phase.result? = some (.ok ())) :
    Phase.Finished dearmouring () (fun _ => ()) Payload.shown s.exhausted j.messages j.payloads
      s.dearmourer := h.opened.finished h.openerKnows hopened

/-- When the payloads are closed, both workers are done and all channels are closed. -/
theorem all_closed (h : s.Flowing j) (hclosed : s.payloads.ring.closed = true) :
    s.joiner.phase.result? = some (.ok ()) ∧ s.opener.phase.result? = some (.ok ()) ∧
      s.Closed := by
  have hopened := h.openerKnows.of_closed hclosed
  have hmessages := (h.opened_finished hopened).drained.closed
  have hjoined := h.joinerKnows.of_closed hmessages
  exact ⟨hjoined, hopened, (h.joined_finished hjoined).drained.closed, hmessages, hclosed⟩

/-- When nothing is left of the payloads, all that were put in were taken, and they are what comes
of all the sentences. -/
theorem all_received (h : s.Flowing j) (hclosed : s.payloads.ring.closed = true)
    (hempty : s.payloads.contents = []) : s.received.reverse.flatten = j.payloads ∧
      s.received.reverse.flatten.map Payload.shown =
        (Receiver.outcome .empty j.sentences []).1 := by
  have htaken : s.received.reverse.flatten = j.payloads := by
    rw [h.taken, queued, hempty, Buffer.records_nil, List.append_nil]
  refine ⟨htaken, ?_⟩
  obtain ⟨hjoined, hopened, -⟩ := h.all_closed hclosed
  rw [htaken, (h.opened_finished hopened).outs]
  exact (Receiver.dearmouring_congr (h.joined_finished hjoined).outs).2

end Flowing

/-- **Nothing is stranded at shutdown**, whatever the interleaving of the feeder, the two workers
and a consumer, as long as nobody else closes the payloads and neither worker finds its pool
exhausted. -/
theorem nothing_stranded {settings : Settings} {grip : Option Nat} {s : Station n}
    (hcreate : create n settings grip = .ok s) (hlt : settings.queueCapacity < 2 ^ 64)
    {acts : List Act} (hacts : .closeOutput ∉ acts)
    (hjoiner : ∀ k, (s.run acts).joiner.phase.fault? ≠ some (.poolExhausted k))
    (hopener : ∀ k, (s.run acts).opener.phase.fault? ≠ some (.poolExhausted k)) :
    Settled s acts := by
  have hblank := blank_of_create hcreate hlt
  have htidy := hblank.tidy.run acts
  have hflow := hblank.flowing.run hblank.tidy hacts hjoiner hopener
  refine ⟨hflow.joined_finished, hflow.opened_finished, fun hclosed => ?_, fun htake => ?_⟩
  · obtain ⟨hjoined, hopened, hall⟩ := hflow.all_closed hclosed
    refine ⟨hjoined, hopened, fun more => ?_⟩
    rw [journal, journalFrom_append]
    exact hall.journalFrom htidy more
  · rcases htidy.payloads.pop_cases with
      ⟨dry, hpop, habandoned | ⟨hempty, hdry⟩⟩ | ⟨b, payloads, hpop, -⟩
    · rw [hflow.kept] at habandoned
      cases habandoned
    · simp only [Receiver.takePayloads, hpop] at htake
      cases htake
      exact ⟨hdry rfl, hflow.all_received (hdry rfl) hempty⟩
    · simp only [Receiver.takePayloads, hpop] at htake
      cases htake

/-! ### One sentence -/

/-- One slot in each queue. -/
def single : Settings := { Settings.default with queueCapacity := 1 }

def emptyLink {α : Type} : Link α 1 := ⟨⟨#[none], 0, 0, false⟩, false⟩

/-- A station with one slot in each queue and one in each batch. -/
def lone : Station 1 :=
  ⟨⟨.any, emptyLink, emptyLink, emptyLink, .empty none, .empty none, .empty none, .empty, .zero⟩,
    false, 128, .idle none, .start, .start, none, [], []⟩

/-- One sentence is taken in, then the input is exhausted and closed; both workers go on to the end,
and the consumer takes what there is. -/
def hasty : List Act :=
  .offer Intake.report :: List.replicate 5 .feed ++
    (List.replicate 2 .feed ++ [.exhaust, .closeInput] ++ List.replicate 24 .join ++
      List.replicate 24 .dearm ++ [.take])

/-- The batch of that sentence. -/
def reported : Batch Sentence 1 :=
  ⟨[(Sentence.empty.parseSize .any Intake.report).1], [], 1, 0, rfl, rfl, Nat.zero_le 1⟩

theorem fill_report : Intake.fill .any (Batch.empty Sentence 1) .zero Intake.report =
    ⟨reported, Tally.zero.addSentence, [], true⟩ := by
  have hsize : (Sentence.empty.parseSize .any Intake.report).2 = 21 := by decide +kernel
  have hparse : Sentence.empty.parseSize .any (Sentence.body Intake.report) =
      ((Sentence.empty.parseSize .any Intake.report).1, 21) := by
    rw [← hsize]
    rfl
  have hclaim : (Batch.empty Sentence 1).claim? =
      some (.empty, ⟨[.empty], [], 1, 0, rfl, rfl, Nat.zero_le 1⟩) := rfl
  rw [Intake.fill_of_parse .any .zero rfl hclaim hparse (by decide), Intake.fill_of_nil _ _ _ rfl]
  rfl

/-- The station when the sentence has been read. -/
def reading : Station 1 :=
  { lone with
    feeder       := .send 22 [] true ⟨0, reported⟩
    sentencePool := ⟨[], 1, none⟩
    tally        := Tally.zero.addSentence }

theorem run_reading : lone.run (.offer Intake.report :: List.replicate 5 .feed) = reading := by
  have hborrowed : lone.run (.offer Intake.report :: List.replicate 4 .feed) =
      { lone with
        feeder       := .fill 22 Intake.report ⟨0, .empty Sentence 1⟩
        sentencePool := ⟨[], 1, none⟩ } := rfl
  show (lone.run (.offer Intake.report :: List.replicate 4 .feed)).act .feed = _
  rw [hborrowed]
  simp only [act, Feeder.step, Receiver.intake, lone, fill_report]
  rfl

theorem run_hasty : lone.run hasty =
    reading.run (List.replicate 2 .feed ++ [.exhaust, .closeInput] ++ List.replicate 24 .join ++
      List.replicate 24 .dearm ++ [.take]) := by
  rw [hasty, run_append, run_reading]

/-- The payload of one sentence arrives, and then the consumer is told that there are no more. -/
theorem nothing_stranded_hasty :
    create 1 single none = .ok lone ∧ single.queueCapacity < 2 ^ 64 ∧ .closeOutput ∉ hasty ∧
      (∀ k, (lone.run hasty).joiner.phase.fault? ≠ some (.poolExhausted k)) ∧
      (∀ k, (lone.run hasty).opener.phase.fault? ≠ some (.poolExhausted k)) ∧
      Settled lone hasty ∧
      (lone.run hasty).opener.phase.result? = some (.ok ()) ∧
      ((lone.run hasty).takePayloads.2 matches .error .closed) ∧
      (lone.run hasty).received.map List.length = [1] := by
  have hcreate : create 1 single none = .ok lone := rfl
  have hlt : single.queueCapacity < 2 ^ 64 := by decide
  have hacts : .closeOutput ∉ hasty := by simp [hasty]
  have hjoiner : (lone.run hasty).joiner.phase.fault? = none := by
    rw [run_hasty]
    decide +kernel
  have hopener : (lone.run hasty).opener.phase.result? = some (.ok ()) := by
    rw [run_hasty]
    decide +kernel
  have hjoiner' : ∀ k, (lone.run hasty).joiner.phase.fault? ≠ some (.poolExhausted k) :=
    fun k => by rw [hjoiner]; exact nofun
  have hopener' : ∀ k, (lone.run hasty).opener.phase.fault? ≠ some (.poolExhausted k) :=
    fun k => by rw [Phase.fault?, hopener]; exact nofun
  have htold : (lone.run hasty).takePayloads.2 matches .error .closed := by
    rw [run_hasty]
    decide +kernel
  have hreceived : (lone.run hasty).received.map List.length = [1] := by
    rw [run_hasty]
    decide +kernel
  exact ⟨hcreate, hlt, hacts, hjoiner', hopener',
    nothing_stranded hcreate hlt hacts hjoiner' hopener', hopener, htold, hreceived⟩

end Station

end Ais
