import Ais.Proofs.Stage.Reader
import Ais.Proofs.Station.Pools
import Ais.Proofs.Station.Shutdown
import Ais.Station.Session

/-!
# Station — while the other threads go on

Whoever owns a station offers it bytes, and the feeder takes them in, step by step.  In between the
other threads do what they like: a `Busy` station has a list of their acts for each time that the
feeder is about to make a step, or its owner is about to look.  Beside the station a journal is kept
of what is put into the channels, and it is noted whether the channel of sentences has been open and
had room at all these times (`roomy`).

The other threads take sentences out of their channel and give the batches back, but they put
nothing into it, leave the feeder alone and count nothing of what it counts (`Step.beside`).  So
whatever they do, the feeder goes on where it stands: `Busy.tick_others`.
-/

namespace Ais

open Receiver (arrived arrived_self)

variable {n : Nat}

namespace Station

/-- An act of the feeder, or of whoever owns the station. -/
def Act.isOwners : Act → Bool
  | .offer _ | .feed | .exhaust | .closeInput => true
  | _ => false

/-- The channel of sentences is open, and there is room in it. -/
def hasRoom (s : Station n) : Bool := !Inlet.isFull s && !Inlet.isClosed s

end Station

open Station (Act Step)

/-- A station whose owner is at work while its other threads go on. -/
structure Busy (n : Nat) where
  station : Station n
  /-- What has been put into the channels. -/
  journal : Journal
  /-- What the other threads do, each time that they may. -/
  others  : Nat → List {a : Act // a.isOwners = false}
  /-- How many times they might so far. -/
  clock   : Nat
  /-- The channel of sentences was open and had room all these times. -/
  roomy   : Bool

namespace Busy

/-- Nothing has been put into the channels yet. -/
def start (s : Station n) (others : Nat → List {a : Act // a.isOwners = false}) : Busy n :=
  ⟨s, ⟨[], [], []⟩, others, 0, s.hasRoom⟩

def run (b : Busy n) (acts : List Act) : Busy n :=
  { b with station := b.station.run acts, journal := b.station.journalFrom b.journal acts }

/-- The other threads go on, until the feeder or the owner goes on. -/
def tick (b : Busy n) : Busy n :=
  let b := b.run ((b.others b.clock).map (·.1))
  { b with clock := b.clock + 1, roomy := b.roomy && b.station.hasRoom }

/-- The feeder runs to the end of its call, for at most `fuel` steps. -/
def feedFor (b : Busy n) : (fuel : Nat) → Busy n
  | 0        => b
  | fuel + 1 => if b.station.feeder.isIdle then b else (b.tick.run [.feed]).feedFor fuel

/-- One call of the feeder, as in `Station.ingest`. -/
def ingest (b : Busy n) (bytes : List UInt8) : Busy n × Except Halt Nat :=
  let b := ((b.run [.offer bytes]).feedFor (8 * (bytes.length + 2))).tick
  (b, b.station.feeder.answer)

instance : Inlet (Busy n) where
  offer       := ingest
  isFull b    := Inlet.isFull b.station
  isClosed b  := Inlet.isClosed b.station
  await       := tick
  countLine b := { b with station := Inlet.countLine b.station }

/-- What the sentences show that were put into their channel, and what the feeder has counted. -/
def account (b : Busy n) : Intake.Account :=
  ⟨b.journal.sentences.map (·.shown), b.station.tally.intake⟩

end Busy

/-! ### What the others leave alone -/

/-- Assembling counts nothing of what the feeder counts. -/
theorem assembling_intake (memory : Assembly) (t : Tally) (slot : Message) (s : Sentence) :
    (assembling memory t slot s).tally.intake = t.intake := by
  simp only [assembling]
  cases (memory.process slot s).2.2 <;> rfl

/-- Nor does taking the armour off. -/
theorem dearmouring_intake (memory : Unit) (t : Tally) (slot : Payload) (m : Message) :
    (dearmouring memory t slot m).tally.intake = t.intake := by
  simp only [dearmouring]
  split <;> rfl

/-- A worker counts nothing of what the feeder counts, if its conversion does not. -/
theorem Phase.Step.intake {σ α β : Type} [Inhabited β] {c : Conversion σ α β} {exhausted : Bool}
    {p q : Phase α β n} {r r' : Section σ α β n} (h : Phase.Step c exhausted p r q r')
    (hc : ∀ memory t slot a, (c memory t slot a).tally.intake = t.intake) :
    r'.tally.intake = r.tally.intake := by
  cases h with
  | @converts r input a as out memory tally batch room h =>
      obtain ⟨slot, out', hrecord, -⟩ := Relay.record?_yields c r.memory r.tally room a
      rw [hrecord] at h
      cases h
      exact hc _ _ _ _
  | _ => rfl

namespace Station

variable {s s' : Station n} {a : Act}

/-- **The other threads leave the feeder alone**: they put nothing into its channel, and count nothing
of what it counts. -/
theorem Step.beside (h : Step s a s') (ha : a.isOwners = false) :
    s'.feeder = s.feeder ∧ s'.tally.intake = s.tally.intake ∧
      arrived s.sentences s'.sentences = [] := by
  cases h with
  | offers | feeds | exhausts | closesInput => cases ha
  | joins hjoin => exact ⟨rfl, hjoin.intake assembling_intake, hjoin.source_arrived⟩
  | dearms hdearm => exact ⟨rfl, hdearm.intake dearmouring_intake, arrived_self _⟩
  | idles | closesOutput | takes | releases => exact ⟨rfl, rfl, arrived_self _⟩

end Station

/-! ### What a station keeps -/

namespace Station

/-- The channels are lists, the threads hold what they should, and the first pool has a batch for the
feeder whenever it needs one. -/
structure Sound (talkers : Talkers) (capacity : Nat) (s : Station n) : Prop where
  tidy    : s.Tidy
  stock   : Stock capacity s.sentencePool s.sentences s.feeder.making s.joiner.phase.taken
  fault   : ∀ k, s.feeder.fault? ≠ some (.poolExhausted k)
  talkers : s.talkers = talkers

/-- A station that was made with valid settings, as it may be after any acts and streams. -/
inductive Reached (settings : Settings) : Station n → Prop where
  | made {grip : Option Nat} {s : Station n} (hlt : settings.queueCapacity < 2 ^ 64)
      (hcreate : create n settings grip = .ok s) : Reached settings s
  | act {s : Station n} (h : Reached settings s) (a : Act) : Reached settings (s.act a)
  /-- A stream may bring lines that are dropped. -/
  | countLine {s : Station n} (h : Reached settings s) : Reached settings (Inlet.countLine s)

variable {s : Station n} {talkers : Talkers} {capacity : Nat}

namespace Sound

/-- An act keeps a station sound. -/
theorem act (h : s.Sound talkers capacity) (a : Act) : (s.act a).Sound talkers capacity := by
  have hstep := h.tidy.act_step a
  obtain ⟨hstock, hfault⟩ := hstep.stock h.stock h.fault
  exact ⟨h.tidy.step hstep, hstock, hfault, hstep.talkers.trans h.talkers⟩

/-- So does any run. -/
theorem run (h : s.Sound talkers capacity) (acts : List Act) :
    (s.run acts).Sound talkers capacity := by
  induction acts generalizing s with
  | nil => exact h
  | cons a acts ih => exact ih (h.act a)

/-- A line that is dropped is only counted. -/
theorem countLine (h : s.Sound talkers capacity) : (Inlet.countLine s).Sound talkers capacity :=
  ⟨{ h.tidy with }, h.stock, h.fault, h.talkers⟩

end Sound

/-- **A station is sound**, whatever has been done with it. -/
theorem Reached.sound {settings : Settings} (h : s.Reached settings) :
    s.Sound settings.talkers settings.queueCapacity := by
  induction h with
  | @made grip s hlt hcreate =>
      have hblank := blank_of_create hcreate hlt
      have hlimit := (Settings.validate_ok (valid_of_create hcreate)).2
      have hfault : ∀ k, s.feeder.fault? ≠ some (.poolExhausted k) := by
        rw [hblank.feeder]
        exact fun k => nofun
      exact ⟨hblank.tidy, hblank.stock hlimit, hfault, hblank.talkers⟩
  | act _ a ih => exact ih.act a
  | countLine _ ih => exact ih.countLine

end Station

namespace Busy

variable {talkers : Talkers} {capacity : Nat} {b : Busy n}

/-- **Whatever the others do**, the feeder goes on where it stands. -/
theorem run_others (h : b.station.Sound talkers capacity)
    (acts : List {a : Act // a.isOwners = false}) :
    (b.run (acts.map (·.1))).station.feeder = b.station.feeder ∧
      (b.run (acts.map (·.1))).account = b.account := by
  induction acts generalizing b with
  | nil => exact ⟨rfl, rfl⟩
  | cons a acts ih =>
      obtain ⟨hfeeder, hintake, harrived⟩ := (h.tidy.act_step a.1).beside a.2
      obtain ⟨hfeeder', haccount⟩ := ih (b := b.run [a.1]) (h.act a.1)
      refine ⟨hfeeder'.trans hfeeder, haccount.trans ?_⟩
      show Intake.Account.mk ((b.journal.sentences ++ arrived b.station.sentences _).map _) _ = _
      rw [harrived, List.append_nil]
      exact congrArg (Intake.Account.mk _) hintake

/-- So it does whenever the others go on. -/
theorem tick_others (h : b.station.Sound talkers capacity) :
    b.tick.station.Sound talkers capacity ∧ b.tick.station.feeder = b.station.feeder ∧
      b.tick.account = b.account :=
  ⟨h.run _, run_others h (b.others b.clock)⟩

/-- There was room all the time if there was before and there is now. -/
theorem roomy_tick : b.tick.roomy = true ↔ b.roomy = true ∧ b.tick.station.hasRoom = true :=
  Bool.and_eq_true_iff

end Busy

end Ais
