import Ais.Proofs.Receiver.Schedule
import Ais.Proofs.Stage.Balance
import Ais.Proofs.Stage.Exhausted

/-!
# Receiver — accounts

The stages of a receiver are called in any order, with any bytes and budgets, and the calls succeed
(`Job`).  `Books` are the receiver and, beside it, the sentences and messages that have been put in
its queues.  The pools may have limits, and may be shared with whoever takes the payloads out.

Each sentence that was put in its queue is there, or waits in the table, or has been joined in a
message that was put in the next queue, or has been refused or thrown away; each such message is in
its queue or has been unpacked, and the tally counts them where they are (`Balanced`).  Every job
keeps this (`Balanced.perform`), so it holds of every run: `records_accounted`.
-/

namespace Ais

/-- A sentence that was read has a fill count that is one. -/
theorem Sentence.HasForm.fill_le {s : Sentence} (h : s.HasForm) :
    s.fill.toNat ≤ Limits.fillBits := by
  obtain ⟨talkers, f, hf, hholds⟩ := h
  exact hholds.fill ▸ hf.fill

/-- So has a message of such sentences. -/
theorem Message.Joins.fill_le {m : Message} {ss : List Sentence} (h : m.Joins ss)
    (hform : ∀ s ∈ ss, s.HasForm) : m.fill.toNat ≤ Limits.fillBits := by
  rw [h.fill]
  cases hlast : ss.getLast? with
  | none => exact Nat.zero_le _
  | some s => exact (hform s (List.mem_of_getLast? hlast)).fill_le

theorem Message.exists_joins {ms : List Message} {groups : List (List Sentence)}
    (h : List.Forall₂ Message.Joins ms groups) {m : Message} (hm : m ∈ ms) :
    ∃ group ∈ groups, m.Joins group := by
  induction h with
  | nil => cases hm
  | @cons m' group ms groups hjoins _ ih =>
      rcases List.mem_cons.mp hm with rfl | hm
      · exact ⟨group, List.mem_cons_self, hjoins⟩
      · obtain ⟨group', hmem, hjoins'⟩ := ih hm
        exact ⟨group', List.mem_cons_of_mem _ hmem, hjoins'⟩

namespace Receiver

variable {n : Nat}

/-- The records that wait in a link. -/
def queued {α : Type} (l : Link α n) : List α := Buffer.records l.contents

/-- The records behind those that were there before. -/
def arrived {α : Type} (before after : Link α n) : List α :=
  (queued after).drop (queued before).length

/-- A call to a receiver, by one of its stages or by whoever takes the payloads out. -/
inductive Job (n : Nat) where
  | ingest (bytes : List UInt8)
  | assemble (budget : Nat)
  | dearmour (budget : Nat)
  /-- Takes a batch of payloads. -/
  | pop
  /-- Gives a batch of payloads back. -/
  | release (b : Buffer Payload n)

/-- A receiver and what has been put in its queues. -/
structure Books (n : Nat) where
  receiver : Receiver n
  /-- The sentences. -/
  read     : List Sentence
  /-- The messages. -/
  emitted  : List Message

/-- Nothing has been put in the queues. -/
def books (r : Receiver n) : Books n := ⟨r, [], []⟩

/-- The queues are open and empty, and so is the table; nothing has been counted.  The pools may have
been used: what they lend is empty. -/
structure IsFresh (r : Receiver n) : Prop where
  sentences    : r.sentences.IsOpen ∧ r.sentences.contents = []
  messages     : r.messages.IsOpen ∧ r.messages.contents = []
  payloads     : r.payloads.IsOpen ∧ r.payloads.contents = []
  sentencePool : r.sentencePool.Clean
  messagePool  : r.messagePool.Clean
  payloadPool  : r.payloadPool.Clean
  assembly     : r.assembly = .empty
  tally        : r.tally = .zero

/-- A new receiver is fresh. -/
theorem create_isFresh (talkers : Talkers) (capacity : PerChannel Nat)
    (limit : PerChannel (Option Nat))
    (h : ∀ c ∈ [capacity.sentences, capacity.messages, capacity.payloads],
      isPowerOfTwo c = true ∧ c < 2 ^ 64) :
    ∃ r : Receiver n, create n talkers capacity limit = .ok r ∧ r.IsFresh := by
  obtain ⟨sentences, messages, payloads, hcreate, hsentences, hmessages, hpayloads⟩ :=
    create_ok talkers limit h
  have hclean : ∀ {α : Type} (limit : Option Nat), (Pool.empty limit : Pool α n).Clean :=
    fun _ _ h => absurd h List.not_mem_nil
  exact ⟨_, hcreate, hsentences, hmessages, hpayloads, hclean _, hclean _, hclean _, rfl, rfl⟩

namespace Books

/-- One call, if it succeeds. -/
def perform (b : Books n) : Job n → Except Halt (Books n)
  | .ingest bytes =>
    match b.receiver.ingest bytes with
    | (_, .error stop) => .error stop
    | (receiver, .ok _) =>
      .ok { b with receiver, read := b.read ++ arrived b.receiver.sentences receiver.sentences }
  | .assemble budget =>
    match b.receiver.assemble budget with
    | (_, .error stop) => .error stop
    | (receiver, .ok _) =>
      .ok { b with receiver, emitted := b.emitted ++ arrived b.receiver.messages receiver.messages }
  | .dearmour budget =>
    match b.receiver.dearmour budget with
    | (_, .error stop) => .error stop
    | (receiver, .ok _) => .ok { b with receiver }
  | .pop => .ok { b with receiver := b.receiver.takePayloads.1 }
  | .release batch => .ok { b with receiver := b.receiver.releasePayloads batch }

/-- Calls one after the other, if they all succeed. -/
def performAll (b : Books n) (jobs : List (Job n)) : Except Halt (Books n) :=
  jobs.foldlM perform b

end Books

/-- The books balance: every sentence and every message is in one place, and counted there. -/
structure Balanced (b : Books n) : Prop where
  sentences    : b.receiver.sentences.IsOpen
  messages     : b.receiver.messages.IsOpen
  payloads     : b.receiver.payloads.IsOpen
  sentencePool : b.receiver.sentencePool.Clean
  messagePool  : b.receiver.messagePool.Clean
  payloadPool  : b.receiver.payloadPool.Clean
  read         : ∀ s ∈ b.read, s.HasForm
  accounts     : ∃ (spent : Spent) (unpacked : List Message),
    b.read.Perm (queued b.receiver.sentences ++ b.receiver.assembly.held ++ spent.all) ∧
    List.Forall₂ Message.Joins b.emitted spent.joined ∧
    b.emitted = unpacked ++ queued b.receiver.messages ∧
    b.receiver.tally.kept = .ofSentences b.read.length + spent.tally + .unpacked unpacked

section Queued

variable {α : Type} {before after : Link α n}

/-- Records that are put in a link arrive. -/
theorem arrived_eq {more : List α} (h : queued after = queued before ++ more) :
    arrived before after = more := by
  rw [arrived, h, List.drop_left]

/-- The records of batches that are taken from a link are its first. -/
theorem queued_of_taken {done : List (Buffer α n)} (h : before.contents = done ++ after.contents) :
    queued before = Buffer.records done ++ queued after := by
  rw [queued, h, Buffer.records_append]
  rfl

end Queued

namespace Balanced

variable {b b' : Books n}

/-- Fresh books balance. -/
theorem of_fresh {r : Receiver n} (h : r.IsFresh) : Balanced r.books := by
  refine ⟨h.sentences.1, h.messages.1, h.payloads.1, h.sentencePool, h.messagePool, h.payloadPool,
    fun _ hs => absurd hs List.not_mem_nil, .none, [], ?_, .nil, ?_, ?_⟩
  · have hqueued : queued r.sentences = [] := by rw [queued, h.sentences.2, Buffer.records_nil]
    have hheld : r.assembly.held = [] := by rw [h.assembly, Assembly.held_empty]
    simp [books, hqueued, hheld, Spent.all, Spent.none]
  · have hqueued : queued r.messages = [] := by rw [queued, h.messages.2, Buffer.records_nil]
    simp [books, hqueued]
  · simp only [books, h.tally]
    rfl

/-- The sentences of lines that are read go to the end of their queue. -/
theorem perform_ingest (hn : 0 < n) (hb : Balanced b) {bytes : List UInt8}
    (h : b.perform (.ingest bytes) = .ok b') : Balanced b' := by
  rcases hingest : b.receiver.intake.ingest bytes with ⟨k, stop | taken⟩ <;>
    simp only [Books.perform, Receiver.ingest, hingest] at h <;> cases h
  obtain ⟨ls, j, rest, hdelivers, rfl⟩ := Intake.ingest_delivers Channel.keeps hn
    (i := b.receiver.intake) hb.sentences hb.sentencePool hingest
  obtain ⟨out, hrecords, hshown⟩ := hdelivers.records
  have hqueued : queued j.sink = queued b.receiver.sentences ++ out := hrecords
  have harrived : arrived b.receiver.sentences j.sink = out := arrived_eq hqueued
  have hlength : out.length = (Intake.sentences ls).length := by
    simpa using congrArg List.length hshown
  -- the records show sentences that have been read from lines
  have hform : ∀ s ∈ out, s.HasForm := by
    refine Progress.hasForm_of_shown hshown fun s hs => ?_
    have hlines := congrArg Prod.fst hdelivers.reads.lines_eq
    have hmem : s ∈ Intake.sentences (Intake.lines b.receiver.talkers bytes).1 := by
      rw [show (Intake.lines b.receiver.talkers bytes).1 = _ from hlines, Intake.sentences_append]
      exact List.mem_append_left _ hs
    exact Progress.hasForm_of_mem_sentences hmem
  obtain ⟨spent, unpacked, hperm, hjoins, hemitted, htally⟩ := hb.accounts
  refine ⟨hdelivers.isOpen, hb.messages, hb.payloads, hdelivers.clean, hb.messagePool,
    hb.payloadPool, ?_, spent, unpacked, ?_, hjoins, hemitted, ?_⟩
  · intro s hs
    rcases List.mem_append.mp hs with hs | hs
    · exact hb.read s hs
    · exact hform s (harrived ▸ hs)
  · show (b.read ++ arrived b.receiver.sentences j.sink).Perm
      (queued j.sink ++ b.receiver.assembly.held ++ spent.all)
    rw [harrived, hqueued]
    refine List.perm_iff_count.mpr fun s => ?_
    have hcount := List.perm_iff_count.mp hperm s
    simp only [List.count_append] at hcount ⊢
    omega
  · show (j.tally.addBytes taken).kept =
      .ofSentences (b.read ++ arrived b.receiver.sentences j.sink).length + spent.tally +
        .unpacked unpacked
    rw [Tally.kept_addBytes, hdelivers.tally, Intake.kept_addLines,
      show b.receiver.intake.tally.kept = _ from htally, harrived, List.length_append, hlength,
      Tally.ofSentences_add]
    simp only [add_assoc, add_left_comm, add_comm]

/-- Sentences that leave their queue wait in the table or are spent. -/
theorem perform_assemble (hb : Balanced b) {budget : Nat}
    (h : b.perform (.assemble budget) = .ok b') : Balanced b' := by
  rcases hhandle : b.receiver.assembler.handle assembling budget with ⟨s, stop | handled⟩ <;>
    simp only [Books.perform, Receiver.assemble, hhandle] at h <;> cases h
  obtain ⟨done, hsource, hopen, hdelivers, hclean⟩ := Relay.handle_delivers Channel.keeps
    Channel.gives (r := b.receiver.assembler) hb.sentences hb.messages hb.messagePool hhandle
  obtain ⟨out, hyields, hrecords⟩ := hdelivers.records
  have hqueued : queued s.sink = queued b.receiver.messages ++ out := hrecords
  have harrived : arrived b.receiver.messages s.sink = out := arrived_eq hqueued
  have hsentences : queued b.receiver.sentences = Buffer.records done ++ queued s.source :=
    queued_of_taken hsource
  obtain ⟨spent, unpacked, hperm, hjoins, hemitted, htally⟩ := hb.accounts
  -- what leaves the queue has been put there
  have hform : ∀ s ∈ Buffer.records done, s.HasForm := fun s hs => by
    refine hb.read s (hperm.mem_iff.mpr ?_)
    simp [hsentences, hs]
  obtain ⟨spent', hperm', htally', hjoins'⟩ := hyields.spends hform
  have hperm' : (Buffer.records done ++ b.receiver.assembly.held).Perm (s.memory.held ++ spent'.all) :=
    hperm'
  refine ⟨hopen, hdelivers.isOpen, hb.payloads, hclean hb.sentencePool, hdelivers.outputs,
    hb.payloadPool, hb.read, spent ++ spent', unpacked, ?_, ?_, ?_, ?_⟩
  · show b.read.Perm (queued s.source ++ s.memory.held ++ (spent ++ spent').all)
    refine List.perm_iff_count.mpr fun x => ?_
    have hcount := List.perm_iff_count.mp hperm x
    have hcount' := List.perm_iff_count.mp hperm' x
    have hall := List.perm_iff_count.mp (spent.all_append spent') x
    rw [hsentences] at hcount
    simp only [List.count_append] at hcount hcount' hall ⊢
    omega
  · show List.Forall₂ Message.Joins (b.emitted ++ arrived b.receiver.messages s.sink) _
    rw [harrived]
    exact List.rel_append hjoins hjoins'
  · show b.emitted ++ arrived b.receiver.messages s.sink = unpacked ++ queued s.sink
    rw [harrived, hqueued, hemitted, List.append_assoc]
  · show s.tally.kept = _
    have hspent : spent'.tally.kept = spent'.tally := rfl
    rw [htally', Tally.kept_add, show b.receiver.assembler.tally.kept = _ from htally, hspent,
      Spent.tally_append]
    simp only [add_assoc, add_left_comm, add_comm]

/-- Messages that leave their queue are unpacked. -/
theorem perform_dearmour (hb : Balanced b) {budget : Nat}
    (h : b.perform (.dearmour budget) = .ok b') : Balanced b' := by
  rcases hhandle : b.receiver.dearmourer.handle dearmouring budget with ⟨s, stop | handled⟩ <;>
    simp only [Books.perform, Receiver.dearmour, hhandle] at h <;> cases h
  obtain ⟨done, hsource, hopen, hdelivers, hclean⟩ := Relay.handle_delivers Channel.keeps
    Channel.gives (r := b.receiver.dearmourer) hb.messages hb.payloads hb.payloadPool hhandle
  obtain ⟨out, hyields, -⟩ := hdelivers.records
  have hmessages : queued b.receiver.messages = Buffer.records done ++ queued s.source :=
    queued_of_taken hsource
  obtain ⟨spent, unpacked, hperm, hjoins, hemitted, htally⟩ := hb.accounts
  -- a message is joined of sentences that have been read
  have hfill : ∀ m ∈ Buffer.records done, m.fill.toNat ≤ Limits.fillBits := fun m hm => by
    obtain ⟨group, hgroup, hjoin⟩ := Message.exists_joins hjoins (m := m)
      (by simp [hemitted, hmessages, hm])
    refine hjoin.fill_le fun s hs => hb.read s (hperm.mem_iff.mpr ?_)
    have hmem : s ∈ spent.joined.flatten := List.mem_flatten.mpr ⟨group, hgroup, hs⟩
    simp [Spent.all, hmem]
  refine ⟨hb.sentences, hopen, hdelivers.isOpen, hb.sentencePool, hclean hb.messagePool,
    hdelivers.outputs, hb.read, spent, unpacked ++ Buffer.records done, hperm, hjoins, ?_, ?_⟩
  · show b.emitted = unpacked ++ Buffer.records done ++ queued s.source
    rw [hemitted, hmessages, List.append_assoc]
  · show s.tally.kept = _
    have hunpacked : (Tally.unpacked (Buffer.records done)).kept = .unpacked (Buffer.records done) :=
      rfl
    rw [hyields.unpacks hfill, Tally.kept_add, show b.receiver.dearmourer.tally.kept = _ from htally,
      hunpacked, Tally.unpacked_append, add_assoc]

/-- **Every job keeps the books balanced.** -/
theorem perform (hn : 0 < n) (hb : Balanced b) {job : Job n} (h : b.perform job = .ok b') :
    Balanced b' := by
  cases job with
  | ingest bytes => exact hb.perform_ingest hn h
  | assemble budget => exact hb.perform_assemble h
  | dearmour budget => exact hb.perform_dearmour h
  | pop =>
      have hopen : b.receiver.payloads.pop.1.IsOpen := by
        cases hcontents : b.receiver.payloads.contents with
        | nil =>
            obtain ⟨dry, hpop⟩ := hb.payloads.pop_nil hcontents
            exact hpop ▸ hb.payloads
        | cons batch more =>
            obtain ⟨payloads, hpop, hopen, -⟩ := hb.payloads.pop hcontents
            exact hpop ▸ hopen
      cases h
      exact ⟨hb.sentences, hb.messages, hopen, hb.sentencePool, hb.messagePool, hb.payloadPool,
        hb.read, hb.accounts⟩
  | release batch =>
      cases h
      exact ⟨hb.sentences, hb.messages, hb.payloads, hb.sentencePool, hb.messagePool,
        hb.payloadPool.release batch, hb.read, hb.accounts⟩

theorem performAll (hn : 0 < n) (hb : Balanced b) {jobs : List (Job n)}
    (h : b.performAll jobs = .ok b') : Balanced b' := by
  induction jobs generalizing b with
  | nil =>
      cases h
      exact hb
  | cons job jobs ih =>
      obtain ⟨b₁, hjob, hjobs⟩ := bind_eq_ok_iff.mp h
      exact ih (hb.perform hn hjob) hjobs

end Balanced

/-- **Every sentence and every message is accounted for once.**  After any calls that succeed, from
a fresh receiver and as long as no counter wraps: the sentences read are those in their queue, those
that the emitted messages are joined of, those refused for their checksum, those thrown away and
those that wait in the slots; the messages emitted are those in their queue and those unpacked, with
characters or without.  The tally says so in numbers. -/
theorem records_accounted (hn : 0 < n) {r : Receiver n} (hfresh : r.IsFresh) {jobs : List (Job n)}
    {b : Books n} (h : r.books.performAll jobs = .ok b) (hlt : b.read.length < 2 ^ 64) :
    ∃ (groups : List (List Sentence)) (invalid lost : List Sentence) (unpacked : List Message),
      b.read.Perm (queued b.receiver.sentences ++ groups.flatten ++ invalid ++ lost ++
        b.receiver.assembly.held) ∧
      List.Forall₂ Message.Joins b.emitted groups ∧ (∀ s ∈ invalid, s.isValid = false) ∧
      b.emitted = unpacked ++ queued b.receiver.messages ∧
      let t := b.receiver.tally
      t.sentences.toNat = b.read.length ∧ t.messages.toNat = b.emitted.length ∧
      t.sentences.toNat = (queued b.receiver.sentences).length + (groups.map List.length).sum +
        t.checksumFailures.toNat + t.discarded.toNat +
        (b.receiver.assembly.slots.toList.map Slot.index).sum ∧
      t.messages.toNat = (queued b.receiver.messages).length + t.payloads.toNat +
        t.emptyPayloads.toNat ∧
      t.payloads.toNat = unpacked.countP (!·.payload.isEmpty) ∧
      t.emptyPayloads.toNat = unpacked.countP (·.payload.isEmpty) := by
  obtain ⟨spent, unpacked, hperm, hjoins, hemitted, htally⟩ :=
    ((Balanced.of_fresh hfresh).performAll hn h).accounts
  have hread := hperm.length_eq
  have hgroups := hjoins.length_eq
  have hemittedLength := congrArg List.length hemitted
  rw [List.length_append] at hemittedLength
  obtain ⟨hsentences, hinvalid, hlost, hmessages, hfull, hempty⟩ := Tally.toNat_kept htally
    (by rw [hread, List.length_append]; exact Nat.le_add_left _ _) (by omega) hlt
  refine ⟨spent.joined, spent.invalid, spent.lost, unpacked, ?_, hjoins, spent.not_isValid, hemitted,
    hsentences, hmessages.trans hgroups.symm, ?_, ?_, hfull, hempty⟩
  · refine hperm.trans (List.perm_iff_count.mpr fun s => ?_)
    simp only [Spent.all, List.count_append]
    omega
  · rw [hsentences, hinvalid, hlost, ← List.length_flatten, ← b.receiver.assembly.length_held]
    simp only [Spent.all, List.length_append] at hread
    omega
  · -- a message that is unpacked has characters or has none
    have hunpacked : unpacked.length =
        unpacked.countP (·.payload.isEmpty) + unpacked.countP (!·.payload.isEmpty) := by
      simpa using unpacked.length_eq_countP_add_countP (·.payload.isEmpty)
    rw [hmessages, hfull, hempty]
    omega

/-- Five sentences: a message of its own, the first of two that waits, one with a bad checksum, one
that is the second of none, and a message without characters, which is still in its queue when the
first has been unpacked. -/
theorem records_accounted_five :
    let bytes := Ascii.ofString ("AIVDM,1,1,,A,w0h,2*0B\nAIVDM,2,1,3,A,w,0*61\n" ++
      "AIVDM,1,1,,A,w0h,2*00\nAIVDM,2,2,4,A,w,0*65\nAIVDM,1,1,,A,,0*26\ngarbage\n")
    let jobs : List (Job 1) := [.ingest bytes, .assemble 5, .dearmour 1]
    ∃ (r : Receiver 1) (b : Books 1),
      create 1 .any ⟨8, 2, 2⟩ ⟨some 10, some 4, some 4⟩ = .ok r ∧ r.IsFresh ∧
      r.books.performAll jobs = .ok b ∧ b.read.length = 5 ∧
      let t := b.receiver.tally
      (t.sentences.toNat = 5 ∧ t.messages.toNat = 2 ∧ t.checksumFailures = 1 ∧ t.discarded = 1) ∧
      ∃ groups : List (List Sentence), List.Forall₂ Message.Joins b.emitted groups ∧
        t.sentences.toNat = (queued b.receiver.sentences).length + (groups.map List.length).sum +
          t.checksumFailures.toNat + t.discarded.toNat +
          (b.receiver.assembly.slots.toList.map Slot.index).sum ∧
        t.messages.toNat = (queued b.receiver.messages).length + t.payloads.toNat +
          t.emptyPayloads.toNat := by
  intro bytes jobs
  obtain ⟨r, hcreate, hfresh⟩ : ∃ r : Receiver 1, _ ∧ r.IsFresh :=
    create_isFresh .any ⟨8, 2, 2⟩ ⟨some 10, some 4, some 4⟩ (by decide)
  have hsees : (r.books.performAll jobs).toOption.map (fun b => (b.read.length,
      b.receiver.tally.messages, b.receiver.tally.checksumFailures, b.receiver.tally.discarded)) =
      some (5, 2, 1, 1) := by
    cases hcreate
    decide +kernel
  cases hrun : r.books.performAll jobs with
  | error stop =>
      rw [hrun] at hsees
      cases hsees
  | ok b =>
      rw [hrun] at hsees
      obtain ⟨hread, hmessages, hinvalid, hlost⟩ : b.read.length = 5 ∧
          b.receiver.tally.messages = 2 ∧ b.receiver.tally.checksumFailures = 1 ∧
          b.receiver.tally.discarded = 1 := by
        simpa [Except.toOption] using hsees
      obtain ⟨groups, -, -, -, -, hjoins, -, -, hsentences, -, haccounts, hmessages', -⟩ :=
        records_accounted Nat.one_pos hfresh hrun (hread ▸ by decide)
      exact ⟨r, b, hcreate, hfresh, hrun, hread, ⟨hsentences.trans hread,
        congrArg UInt64.toNat hmessages, hinvalid, hlost⟩, groups, hjoins, haccounts, hmessages'⟩

end Receiver

end Ais
