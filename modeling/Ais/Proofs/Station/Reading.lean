import Ais.Proofs.Station.Busy

/-!
# Station — a stream is read while the other threads go on

A call of the feeder is many steps, and between any two of them the other threads may have changed
what it finds.  How far it has come is said of each of its states (`Feeder.Halfway`): so many lines
have been taken in, and the rest is to be looked at.  If there is room, a step goes on from there and
comes nearer to the end (`Feeder.step_halfway`).  So a call takes in the lines that have their end
(`Busy.Resting.ingest`), and what holds of anything that takes lines in holds of a station
(`Busy.takesLines`).

* `ingestReader_delivers`: however a stream is read, its sentences are put into their channel, in
  order, and its lines are counted.  No pool runs dry on the way.
* `ingestReader_depends`: what the lines of a stream are may depend on where the reads end.
-/

namespace Ais

open Intake (Account Line Reads counts_addLines intake_addLines lines lines_nil sentences
  sentences_nil shownIn)
open Receiver (arrived arrived_eq arrived_self)

variable {n : Nat}

namespace Feeder

variable {talkers : Talkers} {bytes rest : List UInt8} {before now : Account} {ls : List Line}

/-- How many steps are left of a call, at most.  Each batch takes a byte at least. -/
def ahead : Feeder n → Nat
  | idle _             => 0
  | count _ _          => 1
  | look _ bytes       => 6 * bytes.length + 7
  | room _ bytes       => 6 * bytes.length + 6
  | borrow _ bytes     => 6 * bytes.length + 5
  | allocate _ bytes   => 6 * bytes.length + 4
  | fill _ bytes _     => 6 * bytes.length + 3
  | send _ bytes done _ => if done then 2 else 6 * bytes.length + 8

/-- How far a call has come that began with `bytes` when the account was `before`: so many lines have
been taken in, those in hand among them, and the rest is to be looked at. -/
def Halfway (talkers : Talkers) (bytes : List UInt8) (before now : Account) : Feeder n → Prop
  | idle answer =>
    let taken := bytes.length - (lines talkers bytes).2.length
    answer = some (.ok taken) ∧ now = before.add (lines talkers bytes).1 taken
  | count size rest =>
    size = bytes.length ∧ rest = (lines talkers bytes).2 ∧ now = before.add (lines talkers bytes).1 0
  | look size rest | room size rest | borrow size rest | allocate size rest | fill size rest _ =>
    size = bytes.length ∧ ∃ ls, Reads talkers bytes ls rest ∧ now = before.add ls 0
  | send size rest done b =>
    size = bytes.length ∧ ∃ ls, Reads talkers bytes ls rest ∧
      ⟨now.delivered ++ shownIn b.batch, now.tally⟩ = before.add ls 0 ∧
      (done = true → lines talkers rest = ([], rest))

/-- No line has its end in what is left: the lines are all that there are. -/
theorem lines_of_left (hreads : Reads talkers bytes ls rest)
    (hleft : lines talkers rest = ([], rest)) : lines talkers bytes = (ls, rest) := by
  rw [hreads.lines_eq, hleft, List.append_nil]

/-- After a batch a call goes on where it stands, or has found all lines. -/
theorem halfway_proceed {done : Bool} (hreads : Reads talkers bytes ls rest)
    (hnow : now = before.add ls 0) (hdone : done = true → lines talkers rest = ([], rest)) :
    (proceed bytes.length rest done : Feeder n).Halfway talkers bytes before now := by
  cases done with
  | true =>
      have hlines := lines_of_left hreads (hdone rfl)
      exact ⟨rfl, by rw [hlines], by rw [hlines, hnow]⟩
  | false => exact ⟨rfl, ls, hreads, hnow⟩

/-- A call that has no step left is over. -/
theorem isIdle_of_ahead {f : Feeder n} (h : f.ahead = 0) : f.isIdle = true := by
  cases f with
  | idle answer => rfl
  | send size rest done b => cases done <;> cases h
  | _ => cases h

/-- At the end of a call the lines have been taken in that have their end. -/
theorem answer_of_halfway {f : Feeder n} (h : f.Halfway talkers bytes before now)
    (hidle : f.isIdle = true) :
    f.answer = .ok (bytes.length - (lines talkers bytes).2.length) ∧
      now = before.add (lines talkers bytes).1 (bytes.length - (lines talkers bytes).2.length) := by
  cases f with
  | idle answer =>
      obtain ⟨rfl, hnow⟩ := h
      exact ⟨rfl, hnow⟩
  | _ => cases hidle

/-- How much is left after a batch. -/
theorem ahead_proceed (size : Nat) (bytes : List UInt8) (done : Bool) :
    (proceed size bytes done : Feeder n).ahead = if done then 1 else 6 * bytes.length + 7 := by
  cases done <;> rfl

/-- A batch is filled with the next lines, and takes a byte at least, unless no line of the rest has
its end. -/
theorem fill_halfway (hn : 0 < n) {i : Intake (Link Sentence n) n} {b : Buffer Sentence n}
    (hblank : b.batch.items = []) (hreads : Reads i.talkers bytes ls rest)
    {shown : List (Header × List UInt8)} (hnow : ⟨shown, i.tally.intake⟩ = before.add ls 0) :
    let filled := Intake.fill i.talkers b.batch i.tally rest
    (∃ ls', Reads i.talkers bytes ls' filled.rest ∧
      ⟨shown ++ shownIn filled.batch, filled.tally.intake⟩ = before.add ls' 0 ∧
      (filled.done = true → lines i.talkers filled.rest = ([], filled.rest))) ∧
    (if filled.done then 2 else 6 * filled.rest.length + 8) < 6 * rest.length + 3 := by
  intro filled
  obtain ⟨more, hmore, hbatch, htally, hdone, -⟩ :=
    Intake.fill_reads i.talkers b.batch i.tally rest
  have hempty : shownIn b.batch = [] := by rw [shownIn, hblank, List.map_nil]
  refine ⟨⟨ls ++ more, hreads.trans hmore, ?_, hdone⟩, ?_⟩
  · rw [← Nat.zero_add 0, ← Account.add_add, ← hnow, hbatch, htally, intake_addLines, hempty,
      List.nil_append, Account.add, Intake.addBytes_zero]
  · split
    case isTrue => omega
    case isFalse hmany =>
      have hshorter : filled.rest.length < rest.length :=
        Intake.length_fill_rest hn i.talkers hblank i.tally rest (Bool.eq_false_iff.mpr hmany)
      omega

/-- **One step of a call**: while there is room, the lines go on being taken in, and the call comes
nearer to its end. -/
theorem step_halfway (hn : 0 < n) {f : Feeder n} {i : Intake (Link Sentence n) n} (htidy : f.Tidy i)
    (hfull : i.sink.ring.isFull = false) (hopen : i.sink.ring.closed = false)
    (hpool : f.making = .wanting → ∃ lent, i.pool.allocate = .ok lent)
    {sent : List Sentence}
    (h : f.Halfway i.talkers bytes before ⟨sent.map (·.shown), i.tally.intake⟩)
    (hidle : f.isIdle = false) :
    (f.step i).1.Halfway i.talkers bytes before
        ⟨(sent ++ arrived i.sink (f.step i).2.sink).map (·.shown), (f.step i).2.tally.intake⟩ ∧
      (f.step i).1.ahead < f.ahead := by
  have hsame : sent ++ arrived i.sink i.sink = sent := by rw [arrived_self, List.append_nil]
  cases f with
  | idle answer => cases hidle
  | look size rest =>
      obtain ⟨rfl, ls, hreads, hnow⟩ := h
      by_cases hempty : rest.isEmpty = true
      · obtain rfl : rest = [] := by simpa using hempty
        have hlines := lines_of_left hreads (lines_nil _)
        simp only [step, List.isEmpty_nil, if_true, hsame]
        exact ⟨⟨rfl, by rw [hlines], by rw [hlines, hnow]⟩, by simp [ahead]⟩
      · have hclosed : Sink.isClosed i.sink = false := hopen
        simp only [step, hempty, hclosed, Bool.false_eq_true, if_false, hsame]
        exact ⟨⟨rfl, ls, hreads, hnow⟩, Nat.lt_succ_self _⟩
  | room size rest =>
      have hfull' : Sink.isFull i.sink = false := hfull
      simp only [step, hfull', Bool.false_eq_true, if_false, hsame]
      exact ⟨h, Nat.lt_succ_self _⟩
  | borrow size rest =>
      simp only [step]
      cases i.pool.takeSpare? with
      | none => exact ⟨by rw [hsame]; exact h, Nat.lt_succ_self _⟩
      | some lent => exact ⟨by rw [hsame]; exact h, by simp only [ahead]; omega⟩
  | allocate size rest =>
      obtain ⟨lent, hlent⟩ := hpool rfl
      simp only [step, hlent, hsame]
      exact ⟨h, Nat.lt_succ_self _⟩
  | fill size rest b =>
      obtain ⟨rfl, ls, hreads, hnow⟩ := h
      obtain ⟨⟨ls', hreads', hnow', hdone⟩, hnearer⟩ := fill_halfway hn htidy.fits hreads hnow
      simp only [step]
      generalize Intake.fill i.talkers b.batch i.tally rest = filled
        at hreads' hnow' hdone hnearer ⊢
      by_cases hnone : filled.batch.isEmpty = true
      · rw [shownIn, Batch.isEmpty_iff.mp hnone, List.map_nil, List.append_nil] at hnow'
        simp only [hnone, if_true, hsame]
        refine ⟨halfway_proceed hreads' hnow' hdone, Nat.lt_of_le_of_lt ?_ hnearer⟩
        rw [ahead_proceed]
        split <;> omega
      · simp only [hnone, Bool.false_eq_true, if_false, hsame]
        exact ⟨⟨rfl, ls', hreads', hnow', hdone⟩, hnearer⟩
  | send size rest done b =>
      obtain ⟨rfl, ls, hreads, hnow, hdone⟩ := h
      obtain ⟨sink, hpush, hgains⟩ := htidy.sink.push_of_room hopen hfull b
      have hsend : Sink.send i.sink b = (sink, .ok ()) := hpush
      simp only [step, hsend, arrived_eq hgains.queued_eq, List.map_append]
      refine ⟨halfway_proceed hreads hnow hdone, ?_⟩
      rw [ahead_proceed, ahead]
      split <;> omega
  | count size rest =>
      obtain ⟨rfl, rfl, hnow⟩ := h
      simp only [step, hsame, Tally.intake_addBytes]
      refine ⟨⟨rfl, ?_⟩, Nat.zero_lt_one⟩
      have hadd := Account.add_add before (lines i.talkers bytes).1 [] 0
        (bytes.length - (lines i.talkers bytes).2.length)
      rw [← hnow, List.append_nil, Nat.zero_add, Account.add, sentences_nil, List.map_nil,
        List.append_nil] at hadd
      exact hadd

end Feeder

namespace Busy

variable {talkers : Talkers} {capacity : Nat} {bytes : List UInt8} {before : Account} {b : Busy n}

theorem isOpen_of_hasRoom {s : Station n} (h : s.hasRoom = true) :
    s.sentences.ring.isFull = false ∧ s.sentences.ring.closed = false := by
  rw [Station.hasRoom, Bool.and_eq_true, Bool.not_eq_true', Bool.not_eq_true'] at h
  exact h

/-- **One step of the feeder**, if there is room. -/
theorem feed_halfway (hn : 0 < n) (h : b.station.Sound talkers capacity)
    (hroom : b.station.hasRoom = true)
    (hhalfway : b.station.feeder.Halfway talkers bytes before b.account)
    (hidle : b.station.feeder.isIdle = false) :
    (b.run [.feed]).station.Sound talkers capacity ∧
      (b.run [.feed]).station.feeder.Halfway talkers bytes before (b.run [.feed]).account ∧
      (b.run [.feed]).station.feeder.ahead < b.station.feeder.ahead := by
  obtain ⟨hfull, hopen⟩ := isOpen_of_hasRoom hroom
  refine ⟨h.run [.feed], ?_⟩
  obtain rfl := h.talkers
  refine Feeder.step_halfway hn h.tidy.feeding hfull hopen (fun hwanting => ?_) hhalfway hidle
  exact (hwanting ▸ h.stock).allocate_ok

/-- If there was room to the end of a call, there was at its beginning. -/
theorem roomy_feedFor {fuel : Nat} (h : (b.feedFor fuel).roomy = true) : b.roomy = true := by
  induction fuel generalizing b with
  | zero => exact h
  | succ fuel ih =>
      rw [feedFor] at h
      split at h
      · exact h
      · have hstepped : (b.tick.run [.feed]).roomy = true := ih h
        exact (roomy_tick.mp hstepped).1

/-- **The feeder comes to the end of its call**, whatever the others do in between. -/
theorem feedFor_halfway (hn : 0 < n) {fuel : Nat} (h : b.station.Sound talkers capacity)
    (hhalfway : b.station.feeder.Halfway talkers bytes before b.account)
    (hfuel : b.station.feeder.ahead ≤ fuel) (hroomy : (b.feedFor fuel).roomy = true) :
    (b.feedFor fuel).station.Sound talkers capacity ∧
      (b.feedFor fuel).station.feeder.isIdle = true ∧
      (b.feedFor fuel).station.feeder.Halfway talkers bytes before (b.feedFor fuel).account := by
  induction fuel generalizing b with
  | zero =>
      exact ⟨h, Feeder.isIdle_of_ahead (Nat.le_zero.mp hfuel), hhalfway⟩
  | succ fuel ih =>
      rw [feedFor] at hroomy ⊢
      split
      case isTrue hidle => exact ⟨h, hidle, hhalfway⟩
      case isFalse hidle =>
        rw [if_neg hidle] at hroomy
        obtain ⟨hsound, hfeeder, haccount⟩ := tick_others h
        rw [← hfeeder, ← haccount] at hhalfway
        rw [← hfeeder] at hidle hfuel
        have hstepped : (b.tick.run [.feed]).roomy = true := roomy_feedFor hroomy
        have hroom := (roomy_tick.mp hstepped).2
        obtain ⟨hsound', hhalfway', hahead⟩ :=
          feed_halfway hn hsound hroom hhalfway (Bool.eq_false_iff.mpr hidle)
        exact ih hsound' hhalfway' (by omega) hroomy

/-- Between two calls. -/
structure Resting (talkers : Talkers) (capacity : Nat) (b : Busy n) : Prop
    extends b.station.Sound talkers capacity where
  idle : b.station.feeder.isIdle = true
  /-- It is known of now, too. -/
  room : b.roomy = true → b.station.hasRoom = true

/-- With an offer a call begins, and nothing is taken in yet. -/
theorem run_offer (hidle : b.station.feeder.isIdle = true) (bytes : List UInt8) :
    (b.run [.offer bytes]).station.feeder = .look bytes.length bytes ∧
      (b.run [.offer bytes]).account = b.account := by
  have hact : b.station.act (.offer bytes) = { b.station with feeder := .look bytes.length bytes } :=
    if_pos hidle
  refine ⟨congrArg Station.feeder hact, ?_⟩
  show Account.mk ((b.journal.sentences ++ arrived _ (b.station.act (.offer bytes)).sentences).map _)
    (b.station.act (.offer bytes)).tally.intake = _
  rw [hact, arrived_self, List.append_nil]
  rfl

/-- **A call takes in the lines that have their end**, and says how many bytes they are. -/
theorem Resting.ingest (hn : 0 < n) (h : b.Resting talkers capacity)
    (hroomy : (b.ingest bytes).1.roomy = true) :
    ∃ b', b.ingest bytes = (b', .ok (bytes.length - (lines talkers bytes).2.length)) ∧
      b'.Resting talkers capacity ∧
      b'.account = b.account.add (lines talkers bytes).1
        (bytes.length - (lines talkers bytes).2.length) := by
  obtain ⟨hfeeder, haccount⟩ := run_offer h.idle bytes
  have hhalfway : (b.run [.offer bytes]).station.feeder.Halfway talkers bytes b.account
      (b.run [.offer bytes]).account := by
    rw [hfeeder, haccount]
    exact ⟨rfl, [], .here bytes, b.account.add_nil.symm⟩
  have hfuel : (b.run [.offer bytes]).station.feeder.ahead ≤ 8 * (bytes.length + 2) := by
    rw [hfeeder, Feeder.ahead]
    omega
  obtain ⟨hsound, hidle, hended⟩ :=
    feedFor_halfway hn (h.run [.offer bytes]) hhalfway hfuel (roomy_tick.mp hroomy).1
  obtain ⟨hsound', hfeeder', haccount'⟩ := tick_others hsound
  rw [← hfeeder', ← haccount'] at hended
  rw [← hfeeder'] at hidle
  obtain ⟨hanswer, hnow⟩ := Feeder.answer_of_halfway hended hidle
  exact ⟨_, Prod.ext rfl hanswer, ⟨hsound', hidle, fun h => (roomy_tick.mp h).2⟩, hnow⟩

/-- **A busy station takes lines in**, as long as the channel of sentences is found open and with
room. -/
theorem takesLines (hn : 0 < n) (talkers : Talkers) (capacity : Nat) :
    Inlet.TakesLines talkers (account (n := n)) (Resting talkers capacity) (·.roomy = true) where
  room h hroomy      := isOpen_of_hasRoom (h.room hroomy)
  offer h hroomy _   := h.ingest hn hroomy
  countLine {b} h    := by
    refine ⟨⟨h.toSound.countLine, h.idle, h.room⟩, ?_⟩
    rw [Account.add, Intake.addBytes_zero]
    exact congrArg (Account.mk · _) (List.append_nil _).symm
  calm_offer {b bytes} h := by
    have hbegun : (b.run [.offer bytes]).roomy = true := roomy_feedFor (roomy_tick.mp h).1
    exact hbegun
  calm_await h       := (roomy_tick.mp h).1
  calm_countLine h   := h

/-! ### A stream -/

/-- A station whose feeder is idle is between two calls. -/
theorem resting_start {settings : Settings} {s : Station n} (h : s.Reached settings)
    (hidle : s.feeder.isIdle = true) (others : Nat → List {a : Station.Act // a.isOwners = false}) :
    (start s others).Resting settings.talkers settings.queueCapacity :=
  ⟨h.sound, hidle, id⟩

open Intake (BreaksField ShortTails blank delivered readLines sealed)

/-- **However a stream is read, and whatever the other threads do, its lines are taken in**, as long
as the channel of sentences is found open and with room: their sentences are put into it in order, and
each line is counted.  No pool runs dry that the settings may have.

Where no line feed stands between two commas, one piece gives the same that has a line feed behind
every line that is left longer than a sentence can be, and behind the last; and where no line is left
so, that piece is the stream. -/
theorem ingestReader_delivers (hn : 0 < n) {settings : Settings} {s : Station n}
    (hs : s.Reached settings) (hidle : s.feeder.isIdle = true)
    (others : Nat → List {a : Station.Act // a.isOwners = false}) {reads : List (List UInt8)}
    (hreads : ∀ r ∈ reads, r ≠ [])
    (hroomy : (Inlet.ingestReader (start s others) (reads.map .bytes)).1.roomy = true) :
    let ls := readLines settings.talkers [] reads
    ∃ b total, Inlet.ingestReader (start s others) (reads.map .bytes) = (b, .ok total) ∧
      (b.journal.sentences.map (·.shown) = (sentences ls).map (·.shown) ∧
        b.station.tally.sentences = s.tally.sentences + .ofNat (sentences ls).length ∧
        b.station.tally.malformed = s.tally.malformed + .ofNat (ls.countP (·.isNone))) ∧
      (¬ BreaksField reads.flatten →
        (∃ k taken,
          (blank n settings.talkers).ingest (sealed settings.talkers [] reads) = (k, .ok taken) ∧
          b.journal.sentences.map (·.shown) = delivered Ledger.entries k.sink ∧
          b.station.tally.sentences = s.tally.sentences + k.tally.sentences ∧
          b.station.tally.malformed = s.tally.malformed + k.tally.malformed) ∧
        (ShortTails settings.talkers reads →
          sealed settings.talkers [] reads = reads.flatten ++ [Ascii.lineFeed])) := by
  intro ls
  obtain ⟨b, total, counted, hreader, haccount, -⟩ :=
    (takesLines hn settings.talkers settings.queueCapacity).ingestFrom_lines hreads
      (resting_start hs hidle others) hroomy
  have hdelivered : b.journal.sentences.map (·.shown) = (sentences ls).map (·.shown) :=
    congrArg Account.delivered haccount
  have hsentences : b.station.tally.sentences =
      s.tally.sentences + .ofNat (sentences ls).length :=
    (congrArg (·.tally.sentences) haccount).trans (counts_addLines s.tally.intake ls).1
  have hmalformed : b.station.tally.malformed =
      s.tally.malformed + .ofNat (ls.countP (·.isNone)) :=
    (congrArg (·.tally.malformed) haccount).trans (counts_addLines s.tally.intake ls).2
  refine ⟨b, total, hreader, ⟨hdelivered, hsentences, hmalformed⟩, fun hbreaks => ⟨?_, ?_⟩⟩
  · have hlines : ls = (lines settings.talkers (sealed settings.talkers [] reads)).1 :=
      Intake.readLines_eq hreads hbreaks
    obtain ⟨k, taken, hingest, hdelivered', hsentences', hmalformed'⟩ :=
      Intake.ingest_blank hn settings.talkers (sealed settings.talkers [] reads)
    rw [← hlines] at hdelivered' hsentences' hmalformed'
    exact ⟨k, taken, hingest, hdelivered.trans hdelivered'.symm, hsentences' ▸ hsentences,
      hmalformed' ▸ hmalformed⟩
  · exact fun hshort => Intake.sealed_eq hbreaks hshort

/-- A channel with two slots. -/
def narrowLink {α : Type} : Link α 1 := ⟨⟨#[none, none], 0, 0, false⟩, false⟩

/-- A station with two slots in each channel, one in each batch, and four batches of each kind. -/
def narrow : Station 1 :=
  ⟨⟨.any, narrowLink, narrowLink, narrowLink, .empty (some 4), .empty (some 4), .empty (some 4),
    .empty, .zero⟩, false, 128, .idle none, .start, .start, some 1, [], []⟩

/-- Every other thread makes two steps. -/
def everyone : Nat → List {a : Station.Act // a.isOwners = false} := fun _ =>
  let round : List {a : Station.Act // a.isOwners = false} :=
    [⟨.join, rfl⟩, ⟨.dearm, rfl⟩, ⟨.take, rfl⟩, ⟨.release, rfl⟩]
  round ++ round

theorem reached_narrow : narrow.Reached Station.tight :=
  .made (by decide) (show Station.create 1 Station.tight (some 1) = .ok narrow from rfl)

/-- A line that is given up, and six sentences, more than there are batches: one of them arrives in
two reads, and the last has no end. -/
theorem ingestReader_delivers_six :
    let sentence := Ascii.ofString "!AIVDM,1,1,,A,w0h,2*0B"
    let line := sentence ++ Ascii.ofString "\r\n"
    let reads := [List.replicate 86 120, Ascii.ofString "x\n!AIVDM,1,1,,A,w0h",
      Ascii.ofString ",2*0B\r\n" ++ line ++ line, line ++ line ++ sentence]
    let result := Inlet.ingestReader (start narrow everyone) (reads.map .bytes)
    let ls := readLines Station.tight.talkers [] reads
    narrow.Reached Station.tight ∧ narrow.feeder.isIdle = true ∧ (∀ r ∈ reads, r ≠ []) ∧
      result.1.roomy = true ∧ ¬ BreaksField reads.flatten ∧
      (∃ b total, result = (b, .ok total) ∧
        (b.journal.sentences.map (·.shown) = (sentences ls).map (·.shown) ∧
          b.station.tally.sentences = narrow.tally.sentences + .ofNat (sentences ls).length ∧
          b.station.tally.malformed = narrow.tally.malformed + .ofNat (ls.countP (·.isNone))) ∧
        (¬ BreaksField reads.flatten →
          (∃ k taken, (blank 1 Station.tight.talkers).ingest
              (sealed Station.tight.talkers [] reads) = (k, .ok taken) ∧
            b.journal.sentences.map (·.shown) = delivered Ledger.entries k.sink ∧
            b.station.tally.sentences = narrow.tally.sentences + k.tally.sentences ∧
            b.station.tally.malformed = narrow.tally.malformed + k.tally.malformed) ∧
          (ShortTails Station.tight.talkers reads →
            sealed Station.tight.talkers [] reads = reads.flatten ++ [Ascii.lineFeed]))) ∧
      result.2 = .ok 231 ∧
      result.1.journal.sentences.map (·.shown) =
        List.replicate 6 (Sentence.empty.parseSize .any (line.drop 1)).1.shown ∧
      result.1.station.tally.sentences = 6 ∧ result.1.station.tally.malformed = 2 := by
  intro sentence line reads result ls
  have hreads : ∀ r ∈ reads, r ≠ [] := by decide +kernel
  have hroomy : result.1.roomy = true := by decide +kernel
  have hbreaks : ¬ BreaksField reads.flatten := by
    unfold BreaksField
    decide +kernel
  have hresult : result.2 = .ok 231 ∧
      result.1.journal.sentences.map (·.shown) =
        List.replicate 6 (Sentence.empty.parseSize .any (line.drop 1)).1.shown ∧
      result.1.station.tally.sentences = 6 ∧ result.1.station.tally.malformed = 2 := by
    decide +kernel
  exact ⟨reached_narrow, rfl, hreads, hroomy, hbreaks,
    ingestReader_delivers (by decide) reached_narrow rfl everyone hreads hroomy, hresult⟩

/-- Reads count: what comes behind a line given up begins a new one, be it the end of the same; and a
line feed between two commas ends a line or does not. -/
theorem ingestReader_depends :
    let counts (reads : List (List UInt8)) :=
      let (b, total) := Inlet.ingestReader (start narrow everyone) (reads.map .bytes)
      (b.roomy, total, b.station.tally.sentences, b.station.tally.malformed)
    let long := List.replicate 86 120
    let line := Ascii.ofString "!AIVDM,1,1,,A,w0h,2*0B\r\n"
    let opening := Ascii.ofString "!AIVDM,1,1,,\n"
    let closing := Ascii.ofString ",w0h,2*40\r\n"
    (counts [long, line] = (true, .ok 110, 1, 1) ∧ counts [long ++ line] = (true, .ok 110, 0, 1)) ∧
      counts [opening, closing] = (true, .ok 24, 0, 2) ∧
        counts [opening ++ closing] = (true, .ok 24, 1, 0) := by
  decide +kernel

end Busy

end Ais
