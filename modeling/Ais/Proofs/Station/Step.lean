import Ais.Proofs.Receiver.Accounts
import Ais.Proofs.Station.Feeder
import Ais.Proofs.Station.Worker
import Ais.Station

/-!
# Station — what an act can do

`Step` lists what an act can do to a station whose channels are lists and whose threads hold what
they should (`Tidy`), and `act_step` says that there is nothing else.  A station is tidy when it is
made and after every act, so whatever is to be shown of all interleavings is shown case by case.
-/

namespace Ais

/-- What valid settings have. -/
theorem Settings.validate_ok {settings : Settings} (h : settings.validate = .ok ()) :
    isPowerOfTwo settings.queueCapacity = true ∧
      ∀ limit, settings.poolLimit = some limit → settings.queueCapacity + 2 ≤ limit := by
  unfold validate at h
  split at h
  · cases h
  · rename_i hpower
    split at h
    · cases h
    · refine ⟨by simpa using hpower, fun limit hlimit => ?_⟩
      rw [hlimit] at h
      simp only at h
      split at h
      · cases h
      · rename_i hle
        exact Nat.le_of_not_lt hle

namespace Station

variable {n : Nat}

theorem run_append (s : Station n) (acts more : List Act) :
    s.run (acts ++ more) = (s.run acts).run more := List.foldl_append

/-- What an act does. -/
inductive Step (s : Station n) : Act → Station n → Prop where
  | idles {a : Act} : Step s a s
  | offers {bytes : List UInt8} (h : s.feeder.isIdle) :
      Step s (.offer bytes) { s with feeder := .look bytes.length bytes }
  | feeds {f : Feeder n} {i : Intake (Link Sentence n) n}
      (h : Feeder.Step s.feeder s.intake f i) :
      Step s .feed { s with toReceiver := s.setIntake i, feeder := f }
  | exhausts : Step s .exhaust { s with exhausted := true }
  | closesInput : Step s .closeInput { s with sentences := s.sentences.close }
  | closesOutput : Step s .closeOutput { s with payloads := s.payloads.close }
  | joins {w : Worker Sentence Message n} {r : Section Assembly Sentence Message n}
      (h : Phase.Step assembling s.exhausted s.joiner.phase s.assembler w.phase r) :
      Step s .join { s with toReceiver := s.setAssembler r, joiner := w }
  | dearms {w : Worker Message Payload n} {r : Section Unit Message Payload n}
      (h : Phase.Step dearmouring s.exhausted s.opener.phase s.dearmourer w.phase r) :
      Step s .dearm { s with toReceiver := s.setDearmourer r, opener := w }
  | takes {b : Buffer Payload n} {payloads : Link Payload n} (hgrip : s.hasGrip)
      (h : s.payloads.Loses b payloads) :
      Step s .take { s with
        payloads
        held     := s.held ++ [b]
        received := b.batch.items :: s.received }
  | releases {b : Buffer Payload n} {bs : List (Buffer Payload n)} (h : s.held = b :: bs) :
      Step s .release { s with toReceiver := s.releasePayloads b, held := bs }

/-- No act changes whom a station listens to. -/
theorem Step.talkers {s s' : Station n} {a : Act} (h : Step s a s') : s'.talkers = s.talkers := by
  cases h <;> rfl

/-- The channels are lists, nothing is in the spare batches, and the threads hold what fits. -/
structure Tidy (s : Station n) : Prop where
  sentences    : s.sentences.IsList
  messages     : s.messages.IsList
  payloads     : s.payloads.IsList
  sentencePool : s.sentencePool.Clean
  messagePool  : s.messagePool.Clean
  payloadPool  : s.payloadPool.Clean
  feeder       : s.feeder.Fits
  joiner       : s.joiner.phase.Fits
  opener       : s.opener.phase.Fits

namespace Tidy

variable {s s' : Station n} {a : Act}

theorem feeding (h : s.Tidy) : s.feeder.Tidy s.intake :=
  ⟨h.sentences, h.sentencePool, h.feeder⟩

theorem joining (h : s.Tidy) : s.joiner.phase.Tidy s.assembler :=
  ⟨h.sentences, h.sentencePool, h.messages, h.messagePool, h.joiner⟩

theorem opening (h : s.Tidy) : s.opener.phase.Tidy s.dearmourer :=
  ⟨h.messages, h.messagePool, h.payloads, h.payloadPool, h.opener⟩

/-- **An act does nothing but what `Step` says.** -/
theorem act_step (h : s.Tidy) (a : Act) : Step s a (s.act a) := by
  cases a with
  | offer bytes =>
      simp only [act]
      split
      case isTrue hidle => exact .offers hidle
      case isFalse => exact .idles
  | feed => exact .feeds (Feeder.step_step s.feeder s.intake h.feeder h.sentences)
  | exhaust =>
      simp only [act]
      split
      case isTrue => exact .exhausts
      case isFalse => exact .idles
  | closeInput =>
      simp only [act]
      split
      case isTrue => exact .closesInput
      case isFalse => exact .idles
  | closeOutput => exact .closesOutput
  | join =>
      exact .joins (Worker.step_step assembling s.budget s.exhausted s.joiner s.assembler h.joiner
        h.sentences h.messages)
  | dearm =>
      exact .dearms (Worker.step_step dearmouring s.budget s.exhausted s.opener s.dearmourer
        h.opener h.messages h.payloads)
  | take =>
      simp only [act]
      split
      case isFalse => exact .idles
      case isTrue hgrip =>
        rcases h.payloads.pop_cases with ⟨dry, hpop, -⟩ | ⟨b, payloads, hpop, hloses⟩
        · simp only [Receiver.takePayloads, hpop]
          exact .idles
        · simp only [Receiver.takePayloads, hpop]
          exact .takes hgrip hloses
  | release =>
      simp only [act]
      split
      case h_1 => exact .idles
      case h_2 b bs hheld => exact .releases hheld

/-- **A station is tidy after every act.** -/
theorem step (h : s.Tidy) (hstep : Step s a s') : s'.Tidy := by
  cases hstep with
  | idles => exact h
  | offers => exact { h with feeder := trivial }
  | feeds hfeed =>
      obtain ⟨hsink, hpool, hfits⟩ := hfeed.tidy h.feeding
      exact { h with sentences := hsink, sentencePool := hpool, feeder := hfits }
  | exhausts => exact { h with }
  | closesInput => exact { h with sentences := h.sentences.close }
  | closesOutput => exact { h with payloads := h.payloads.close }
  | joins hjoin =>
      obtain ⟨hsource, hinputs, hsink, houtputs, hfits⟩ := hjoin.tidy h.joining
      exact { h with
        sentences := hsource, sentencePool := hinputs
        messages := hsink, messagePool := houtputs, joiner := hfits }
  | dearms hdearm =>
      obtain ⟨hsource, hinputs, hsink, houtputs, hfits⟩ := hdearm.tidy h.opening
      exact { h with
        messages := hsource, messagePool := hinputs
        payloads := hsink, payloadPool := houtputs, opener := hfits }
  | takes _ hloses => exact { h with payloads := hloses.isList }
  | releases => exact { h with payloadPool := h.payloadPool.release _ }

theorem act (h : s.Tidy) (a : Act) : (s.act a).Tidy := h.step (h.act_step a)

theorem run (h : s.Tidy) (acts : List Act) : (s.run acts).Tidy := by
  induction acts generalizing s with
  | nil           => exact h
  | cons a acts ih => exact ih (h.act a)

end Tidy

/-! ### The beginning -/

/-- A station before the first act. -/
structure Blank (s : Station n) (settings : Settings) (grip : Option Nat) : Prop where
  talkers      : s.talkers = settings.talkers
  sentences    : s.sentences.Fresh settings.queueCapacity
  messages     : s.messages.Fresh settings.queueCapacity
  payloads     : s.payloads.Fresh settings.queueCapacity
  sentencePool : s.sentencePool = .empty settings.poolLimit
  messagePool  : s.messagePool = .empty settings.poolLimit
  payloadPool  : s.payloadPool = .empty settings.poolLimit
  assembly     : s.assembly = .empty
  feeder       : s.feeder = .idle none
  joiner       : s.joiner = .start
  opener       : s.opener = .start
  grip         : s.grip = grip
  held         : s.held = []
  received     : s.received = []

/-- With valid settings a station can be made. -/
theorem create_blank {settings : Settings} (hvalid : settings.validate = .ok ())
    (hlt : settings.queueCapacity < 2 ^ 64) (grip : Option Nat) :
    ∃ s : Station n, create n settings grip = .ok s ∧ s.Blank settings grip := by
  obtain ⟨hpower, -⟩ := Settings.validate_ok hvalid
  obtain ⟨sentences, hsentences, hsfresh⟩ := Channel.fresh_create hpower hlt
  obtain ⟨messages, hmessages, hmfresh⟩ := Channel.fresh_create hpower hlt
  obtain ⟨payloads, hpayloads, hpfresh⟩ := Channel.fresh_create hpower hlt
  let receiver : Receiver n :=
    ⟨settings.talkers, sentences, messages, payloads, .empty settings.poolLimit,
      .empty settings.poolLimit, .empty settings.poolLimit, .empty, .zero⟩
  have hreceiver : create n settings grip =
      .ok ⟨receiver, false, settings.batchesPerCall, .idle none, .start, .start, grip, [], []⟩ := by
    simp only [create, hvalid, Receiver.create, hsentences, hmessages, hpayloads]
    rfl
  exact ⟨_, hreceiver, rfl, hsfresh, hmfresh, hpfresh, rfl, rfl, rfl, rfl, rfl, rfl, rfl, rfl, rfl,
    rfl⟩

/-- A station is made with valid settings only. -/
theorem valid_of_create {settings : Settings} {grip : Option Nat} {s : Station n}
    (hcreate : create n settings grip = .ok s) : settings.validate = .ok () := by
  cases hvalid : settings.validate with
  | ok => rfl
  | error f =>
      rw [create, hvalid] at hcreate
      cases hcreate

theorem blank_of_create {settings : Settings} {grip : Option Nat} {s : Station n}
    (hcreate : create n settings grip = .ok s) (hlt : settings.queueCapacity < 2 ^ 64) :
    s.Blank settings grip := by
  obtain ⟨s', hcreate', hblank⟩ := create_blank (n := n) (valid_of_create hcreate) hlt grip
  rw [hcreate] at hcreate'
  cases hcreate'
  exact hblank

theorem Blank.tidy {s : Station n} {settings : Settings} {grip : Option Nat}
    (h : s.Blank settings grip) : s.Tidy where
  sentences    := h.sentences.isList
  messages     := h.messages.isList
  payloads     := h.payloads.isList
  sentencePool := by rw [h.sentencePool]; exact fun _ hb => absurd hb List.not_mem_nil
  messagePool  := by rw [h.messagePool]; exact fun _ hb => absurd hb List.not_mem_nil
  payloadPool  := by rw [h.payloadPool]; exact fun _ hb => absurd hb List.not_mem_nil
  feeder       := by rw [h.feeder]; exact trivial
  joiner       := by rw [h.joiner]; exact trivial
  opener       := by rw [h.opener]; exact trivial

end Station

end Ais
