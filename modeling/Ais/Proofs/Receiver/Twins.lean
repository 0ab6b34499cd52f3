import Ais.Proofs.Receiver.Accounts
import Ais.Proofs.Stage.TwinRelays
import Ais.Proofs.Stage.Dry

/-!
# Receiver — what recycled records hold does not show

Batches come back to their pools with all that is in their slots, the table keeps sentences that
have been used behind those that wait, and a record is decoded over whatever its slot held.  Two
receivers are twins if they differ in nothing but that (`Receiver.Twin`): their channels hold
batches that show the same, the tables show the same, the same has been counted, and as many batches
are lent of each pool.  What lies in the slots of the spare batches, behind the sentences of the
table, and behind every text in its storage, is arbitrary on either side.

Whoever calls the stages and takes batches out sees, call by call, what was answered, what is in the
channels, record by record, and what has been counted (`Client.transcript`).  One call to twin
receivers is answered the same and leaves them twins (`Client.serve_alike`), so every sequence of
calls has the same transcript: `Client.transcript_eq`.
-/

namespace Ais

namespace Receiver

variable {n : Nat} {r r' : Receiver n}

/-- The receivers differ in nothing but what lies out of sight in their storage, and how many spare
batches they have. -/
structure Twin (r r' : Receiver n) : Prop where
  talkers      : r.talkers = r'.talkers
  sentences    : r.sentences.Twin Intake.SameSentences r'.sentences
  messages     : r.messages.Twin (Relay.SameResults Message.shown) r'.messages
  payloads     : r.payloads.Twin (Relay.SameResults Payload.shown) r'.payloads
  sentencePool : r.sentencePool.Twin r'.sentencePool
  messagePool  : r.messagePool.Twin r'.messagePool
  payloadPool  : r.payloadPool.Twin r'.payloadPool
  assembly     : r.assembly.shown = r'.assembly.shown
  tally        : r.tally = r'.tally

/-! ### One call -/

namespace Twin

/-- Twin receivers take the same bytes. -/
theorem ingest (h : r.Twin r') (bytes : List UInt8) :
    EndAlike Twin Eq (r.ingest bytes) (r'.ingest bytes) := by
  have hintake : Intake.Twin (Channel.Twin Intake.SameSentences) r.intake r'.intake :=
    ⟨h.talkers, h.sentencePool, h.sentences, h.tally⟩
  exact (Intake.ingest_alike (Channel.sink_agrees _) hintake bytes).mapState r.setIntake
    r'.setIntake fun hi => ⟨h.talkers, hi.sink, h.messages, h.payloads, hi.pool, h.messagePool,
      h.payloadPool, h.assembly, hi.tally⟩

/-- Twin receivers assemble as many batches. -/
theorem assemble (h : r.Twin r') (budget : Nat) :
    EndAlike Twin Eq (r.assemble budget) (r'.assemble budget) := by
  have hsection : Relay.Twin Assembly.shown (Channel.Twin Intake.SameSentences)
      (Channel.Twin (Relay.SameResults Message.shown)) r.assembler r'.assembler :=
    ⟨h.sentences, h.sentencePool, h.messages, h.messagePool, h.assembly, h.tally⟩
  exact (Relay.handle_alike assembling_lawful (Channel.source_agrees _) (Channel.sink_agrees _)
    hsection budget).mapState r.setAssembler r'.setAssembler fun hs =>
      ⟨h.talkers, hs.source, hs.sink, h.payloads, hs.inputs, hs.outputs, h.payloadPool, hs.memory,
        hs.tally⟩

/-- Twin receivers take the armour off as many batches. -/
theorem dearmour (h : r.Twin r') (budget : Nat) :
    EndAlike Twin Eq (r.dearmour budget) (r'.dearmour budget) := by
  have hsection : Relay.Twin (fun _ : Unit => ())
      (Channel.Twin (Relay.SameResults Message.shown))
      (Channel.Twin (Relay.SameResults Payload.shown)) r.dearmourer r'.dearmourer :=
    ⟨h.messages, h.messagePool, h.payloads, h.payloadPool, rfl, h.tally⟩
  exact (Relay.handle_alike dearmouring_lawful (Channel.source_agrees _) (Channel.sink_agrees _)
    hsection budget).mapState r.setDearmourer r'.setDearmourer fun hs =>
      ⟨h.talkers, h.sentences, hs.source, hs.sink, h.sentencePool, hs.inputs, hs.outputs,
        h.assembly, hs.tally⟩

/-- Out of twin receivers come batches of payloads that show the same. -/
theorem takePayloads (h : r.Twin r') :
    EndAlike Twin (Relay.SameResults Payload.shown) r.takePayloads r'.takePayloads :=
  h.payloads.pop.mapState (fun payloads => { r with payloads })
    (fun payloads => { r' with payloads }) fun hk =>
      ⟨h.talkers, h.sentences, h.messages, hk, h.sentencePool, h.messagePool, h.payloadPool,
        h.assembly, h.tally⟩

theorem releasePayloads (h : r.Twin r') (b b' : Buffer Payload n) :
    (r.releasePayloads b).Twin (r'.releasePayloads b') :=
  ⟨h.talkers, h.sentences, h.messages, h.payloads, h.sentencePool, h.messagePool,
    h.payloadPool.release b b', h.assembly, h.tally⟩

/-- Messages taken out of the middle of twin receivers show the same. -/
theorem popMessages (h : r.Twin r') :
    EndAlike Twin (fun ms ms' => ms.map (·.shown) = ms'.map (·.shown)) r.popMessages
      r'.popMessages := by
  have hpop := h.messages.pop
  rw [Receiver.popMessages, Receiver.popMessages]
  revert hpop
  generalize r.messages.pop = x
  generalize r'.messages.pop = x'
  rintro (⟨hk, dry⟩ | ⟨hk, hb⟩)
  · exact .failed ⟨h.talkers, h.sentences, hk, h.payloads, h.sentencePool, h.messagePool,
      h.payloadPool, h.assembly, h.tally⟩ dry
  · exact .answered ⟨h.talkers, h.sentences, hk, h.payloads, h.sentencePool,
      h.messagePool.release _ _, h.payloadPool, h.assembly, h.tally⟩ hb.shown

/-- Sentences taken out of the middle of twin receivers show the same. -/
theorem popSentences (h : r.Twin r') :
    EndAlike Twin (fun ss ss' => ss.map (·.shown) = ss'.map (·.shown)) r.popSentences
      r'.popSentences := by
  have hpop := h.sentences.pop
  rw [Receiver.popSentences, Receiver.popSentences]
  revert hpop
  generalize r.sentences.pop = x
  generalize r'.sentences.pop = x'
  rintro (⟨hk, dry⟩ | ⟨hk, hb⟩)
  · exact .failed ⟨h.talkers, hk, h.messages, h.payloads, h.sentencePool, h.messagePool,
      h.payloadPool, h.assembly, h.tally⟩ dry
  · exact .answered ⟨h.talkers, hk, h.messages, h.payloads, h.sentencePool.release _ _,
      h.messagePool, h.payloadPool, h.assembly, h.tally⟩ hb.shown

end Twin

/-! ### Whoever calls -/

/-- What shows of a receiver: the batches in its channels, record by record, and what has been
counted. -/
structure View where
  sentences : List (List (Header × List UInt8))
  messages  : List (List (List UInt8 × List UInt8 × Option UInt8 × UInt8))
  payloads  : List (List (List UInt8 × Nat × Option UInt8))
  tally     : Tally

def view (r : Receiver n) : View where
  sentences := r.sentences.contents.map (·.batch.items.map (·.shown))
  messages  := r.messages.contents.map (·.batch.items.map (·.shown))
  payloads  := r.payloads.contents.map (·.batch.items.map (·.shown))
  tally     := r.tally

theorem Twin.view_eq (h : r.Twin r') : r.view = r'.view := by
  have hbatches : ∀ {α ι : Type} {f : α → ι} {Valid : α → Prop} {bs bs' : List (Buffer α n)},
      List.Forall₂ (Buffer.Twin f Valid) bs bs' →
      bs.map (·.batch.items.map f) = bs'.map (·.batch.items.map f) := fun h => by
    induction h with
    | nil => rfl
    | cons hb _ ih => rw [List.map_cons, List.map_cons, hb.shown, ih]
  rw [view, view, hbatches h.sentences.contents, hbatches h.messages.contents,
    hbatches h.payloads.contents, h.tally]

/-- A call to a receiver. -/
inductive Request where
  | ingest (bytes : List UInt8)
  | assemble (budget : Nat)
  | dearmour (budget : Nat)
  /-- Takes a batch of sentences out of the middle. -/
  | popSentences
  /-- Takes a batch of messages out of the middle. -/
  | popMessages
  /-- Takes a batch of payloads. -/
  | takePayloads
  /-- Gives one of the batches taken back. -/
  | release (k : Nat)

/-- What a call answers: what a stage returned, what shows of the batch taken, or nothing. -/
inductive Reply where
  | returned (r : Except Halt Nat)
  | sentences (r : Except Dry (List (Header × List UInt8)))
  | messages (r : Except Dry (List (List UInt8 × List UInt8 × Option UInt8 × UInt8)))
  | payloads (r : Except Dry (List (List UInt8 × Nat × Option UInt8)))
  | released

/-- A receiver, and the batches of payloads that its caller has not given back. -/
structure Client (n : Nat) where
  receiver : Receiver n
  held     : List (Buffer Payload n)

namespace Client

/-- One call. -/
def serve (c : Client n) : Request → Client n × Reply
  | .ingest bytes    =>
    let (receiver, r) := c.receiver.ingest bytes
    ({ c with receiver }, .returned r)
  | .assemble budget =>
    let (receiver, r) := c.receiver.assemble budget
    ({ c with receiver }, .returned r)
  | .dearmour budget =>
    let (receiver, r) := c.receiver.dearmour budget
    ({ c with receiver }, .returned r)
  | .popSentences    =>
    let (receiver, r) := c.receiver.popSentences
    ({ c with receiver }, .sentences (r.map (·.map (·.shown))))
  | .popMessages     =>
    let (receiver, r) := c.receiver.popMessages
    ({ c with receiver }, .messages (r.map (·.map (·.shown))))
  | .takePayloads    =>
    let (receiver, r) := c.receiver.takePayloads
    (⟨receiver, c.held ++ r.toOption.toList⟩, .payloads (r.map (·.batch.items.map (·.shown))))
  | .release k       =>
    match c.held[k]? with
    | some b => (⟨c.receiver.releasePayloads b, c.held.eraseIdx k⟩, .released)
    | none   => (c, .released)

/-- What is answered to calls one after the other, and what shows of the receiver after each. -/
def transcript (c : Client n) : List Request → List (Reply × View)
  | []      => []
  | q :: qs =>
    let (c, reply) := c.serve q
    (reply, c.receiver.view) :: c.transcript qs

/-- The receivers are twins, and the batches taken out of them show the same. -/
structure Twin (c c' : Client n) : Prop where
  receiver : c.receiver.Twin c'.receiver
  held     : List.Forall₂ (Relay.SameResults Payload.shown) c.held c'.held

variable {c c' : Client n}

/-- **One call to twin receivers is answered the same**, and leaves them twins. -/
theorem serve_alike (h : c.Twin c') (q : Request) :
    (c.serve q).1.Twin (c'.serve q).1 ∧ (c.serve q).2 = (c'.serve q).2 := by
  cases q with
  | ingest bytes =>
      have hend := h.receiver.ingest bytes
      exact ⟨⟨hend.state, h.held⟩, congrArg Reply.returned hend.answer⟩
  | assemble budget =>
      have hend := h.receiver.assemble budget
      exact ⟨⟨hend.state, h.held⟩, congrArg Reply.returned hend.answer⟩
  | dearmour budget =>
      have hend := h.receiver.dearmour budget
      exact ⟨⟨hend.state, h.held⟩, congrArg Reply.returned hend.answer⟩
  | popSentences =>
      have hend := h.receiver.popSentences
      exact ⟨⟨hend.state, h.held⟩, congrArg Reply.sentences (hend.map_answer id)⟩
  | popMessages =>
      have hend := h.receiver.popMessages
      exact ⟨⟨hend.state, h.held⟩, congrArg Reply.messages (hend.map_answer id)⟩
  | takePayloads =>
      have hend := h.receiver.takePayloads
      exact ⟨⟨hend.state, List.rel_append h.held hend.forall₂_answer⟩,
        congrArg Reply.payloads (hend.map_answer Buffer.Twin.shown)⟩
  | release k =>
      have hlength := h.held.length_eq
      cases hk : c.held[k]? with
      | none =>
          have hk' : c'.held[k]? = none := by
            rw [List.getElem?_eq_none_iff] at hk ⊢
            omega
          simp only [serve, hk, hk']
          exact ⟨h, trivial⟩
      | some b =>
          obtain ⟨hlt, -⟩ := List.getElem?_eq_some_iff.mp hk
          rw [hlength] at hlt
          have hk' := List.getElem?_eq_getElem hlt
          simp only [serve, hk, hk']
          refine ⟨⟨h.receiver.releasePayloads b _, ?_⟩, trivial⟩
          rw [List.eraseIdx_eq_take_drop_succ, List.eraseIdx_eq_take_drop_succ]
          exact List.rel_append (List.forall₂_take k h.held) (List.forall₂_drop (k + 1) h.held)

/-- **What recycled records hold does not show**: whatever the calls, the stages of twin receivers
return the same, put batches in the channels that show the same record by record, and count the
same. -/
theorem transcript_eq (h : c.Twin c') (requests : List Request) :
    c.transcript requests = c'.transcript requests := by
  induction requests generalizing c c' with
  | nil => rfl
  | cons q qs ih =>
      obtain ⟨hnext, hreply⟩ := serve_alike h q
      simp only [transcript, hreply, hnext.receiver.view_eq, ih hnext]

end Client

/-! ### Receivers that have been used -/

/-- A batch with `a` in every slot. -/
def fullOf {α : Type} (n : Nat) (a : α) : Batch α n :=
  ⟨List.replicate n a, [], n, 0, List.length_replicate, rfl, Nat.zero_le n⟩

/-- A pool to which its only batch has come back, with `a` in every slot. -/
def usedPool {α : Type} (n : Nat) (a : α) (limit : Option Nat) : Pool α n :=
  (Pool.mk [] 1 limit).release ⟨0, fullOf n a⟩

theorem usedPool_twin {α : Type} (a a' : α) {limit : Option Nat} (h : ∀ most ∈ limit, 1 ≤ most) :
    (usedPool n a limit).Twin (usedPool n a' limit) :=
  (Pool.Twin.refl (fun _ hb => absurd hb List.not_mem_nil) h).release _ _

/-- An empty table that has kept `s` everywhere. -/
def usedTable (s : Sentence) : Assembly :=
  ⟨Vector.replicate _ ⟨[], List.replicate Limits.sentencesPerMessage s, 0,
    (Nat.zero_add _).trans List.length_replicate⟩⟩

/-- A receiver with such pools and such a table. -/
def used (r : Receiver n) (s : Sentence) (m : Message) (p : Payload) (limit : Option Nat) :
    Receiver n :=
  { r with
      sentencePool := usedPool n s limit
      messagePool  := usedPool n m limit
      payloadPool  := usedPool n p limit
      assembly     := usedTable s }

/-- Whatever two new receivers have been used for, they are twins. -/
theorem used_twin {r : Receiver n} (h : r.IsFresh) (s s' : Sentence) (m m' : Message)
    (p p' : Payload) {limit : Option Nat} (hlimit : ∀ most ∈ limit, 1 ≤ most) :
    (r.used s m p limit).Twin (r.used s' m' p' limit) where
  talkers      := rfl
  sentences    := .of_nil h.sentences.1.isList h.sentences.2
  messages     := .of_nil h.messages.1.isList h.messages.2
  payloads     := .of_nil h.payloads.1.isList h.payloads.2
  sentencePool := usedPool_twin s s' hlimit
  messagePool  := usedPool_twin m m' hlimit
  payloadPool  := usedPool_twin p p' hlimit
  assembly     := by
    simp only [used, usedTable, Assembly.shown, Vector.map_replicate]
    rfl
  tally        := rfl

/-- Receivers of which one has been used for nothing, and the other for a report: the same happens
when two reports, one of them in two sentences, go through them. -/
theorem transcript_eq_used :
    let bytes := Ascii.ofString
      "AIVDM,2,1,3,A,w,0*61\r\n!AIVDM,1,1,,A,w0h,2*0B\r\ngarbage\nAIVDM,2,2,3,B,0h,2*4C\n"
    let requests : List Request := [.ingest bytes, .assemble 4, .dearmour 4, .takePayloads,
      .release 0, .ingest bytes, .popSentences, .dearmour 1]
    let s := (Sentence.empty.parse .any Intake.report).1
    let m := (Message.empty.ofSingle s).1
    let p := (Payload.empty.ofMessage m).1
    ∃ r : Receiver 2, create 2 .any ⟨2, 2, 2⟩ ⟨none, none, none⟩ = .ok r ∧
      s ≠ .empty ∧ m ≠ .empty ∧ p ≠ .empty ∧
      let c  : Client 2 := ⟨r.used .empty .empty .empty (some 3), []⟩
      let c' : Client 2 := ⟨r.used s m p (some 3), []⟩
      c.Twin c' ∧ c.transcript requests = c'.transcript requests := by
  intro bytes requests s m p
  obtain ⟨r, hcreate, hfresh⟩ :=
    create_isFresh (n := 2) .any ⟨2, 2, 2⟩ ⟨none, none, none⟩ (by decide)
  have htwin : Client.Twin ⟨r.used .empty .empty .empty (some 3), []⟩ ⟨r.used s m p (some 3), []⟩ :=
    ⟨used_twin hfresh _ _ _ _ _ _ (by simp), .nil⟩
  exact ⟨r, hcreate, by decide +kernel, by decide +kernel, by decide +kernel, htwin,
    Client.transcript_eq htwin requests⟩

end Receiver

end Ais
