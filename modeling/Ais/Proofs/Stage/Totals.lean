import Ais.Proofs.Stage.Unlimited
import Ais.Proofs.Station.Reading

/-!
# Intake — two accounts of a stream

A stream is accounted for twice: whoever reads it is told a total when it ends, and the tally counts
bytes on the way.  Neither is the number of bytes that the stream brings.  A last line without an end
is given one, and the total counts that too (`ingestReader_total`).  A line that is given up goes into
the total but not into the tally, so the two differ by the bytes of those lines (`ingestReader_bytes`).
A stream of lines that are short enough, each with its end, is counted right in both.

Both say it of a station, where no pool runs dry whatever limit its settings give it, and of a bare
intake, which nobody gives a batch back to: there a pool with a limit may run dry before.

What the reads bring comes before the first that brings no bytes; one that is interrupted is made
again (`Arrival.reads`).
-/

namespace Ais

namespace Arrival

/-- What is read of a stream, to its end. -/
def reads : List Arrival → List (List UInt8)
  | []                   => []
  | .interrupted :: more => reads more
  | .failed _ :: _       => []
  | .bytes chunk :: more => if chunk.isEmpty then [] else chunk :: reads more

/-- No read fails before the stream is at its end. -/
def endsWell : List Arrival → Bool
  | []                   => true
  | .interrupted :: more => endsWell more
  | .failed _ :: _       => false
  | .bytes chunk :: more => chunk.isEmpty || endsWell more

/-- Each read brings a byte at least. -/
theorem ne_nil_of_mem_reads {read : List UInt8} {arrivals : List Arrival}
    (h : read ∈ reads arrivals) : read ≠ [] := by
  fun_induction reads arrivals with
  | case1 => cases h
  | case2 more ih => exact ih h
  | case3 => cases h
  | case4 chunk more hempty => cases h
  | case5 chunk more hempty ih =>
      rcases List.mem_cons.mp h with rfl | h
      · simpa using hempty
      · exact ih h

end Arrival

/-- A stream that ends well is what its reads bring. -/
theorem Inlet.ingestFrom_map_reads {σ : Type} [Inlet σ] (s : σ) (tail : List UInt8)
    {arrivals : List Arrival} (hends : Arrival.endsWell arrivals = true) :
    Inlet.ingestFrom s tail ((Arrival.reads arrivals).map .bytes) =
      Inlet.ingestFrom s tail arrivals := by
  induction arrivals generalizing s tail with
  | nil => rfl
  | cons arrival more ih =>
      cases arrival with
      | interrupted => exact ih s tail hends
      | failed text => cases hends
      | bytes chunk =>
          rw [Arrival.endsWell, Bool.or_eq_true] at hends
          rw [Arrival.reads]
          by_cases hempty : chunk.isEmpty = true
          · rw [if_pos hempty, Inlet.ingestFrom, if_pos hempty]
            rfl
          · have hends' := hends.resolve_left hempty
            rw [if_neg hempty, List.map_cons, Inlet.ingestFrom, Inlet.ingestFrom]
            simp only [ih _ _ hends']

open Arrival (reads endsWell)
open Intake (Account givenUp lastLine)

/-- **A stream that ends well is taken in to its end**, by whatever takes lines in. -/
theorem Inlet.TakesLines.ingestReader_reads {σ : Type} [Inlet σ] {talkers : Talkers}
    {account : σ → Account} {Ready Calm : σ → Prop} {s : σ}
    (takes : TakesLines talkers account Ready Calm) {arrivals : List Arrival}
    (hends : endsWell arrivals = true) (hready : Ready s)
    (hcalm : Calm (ingestReader s arrivals).1) :
    ∃ t total counted, ingestReader s arrivals = (t, .ok total) ∧
      total = (reads arrivals).flatten.length +
        (if lastLine talkers [] (reads arrivals) = [] then 0 else 1) ∧
      counted + (givenUp talkers [] (reads arrivals)).flatten.length = total ∧
      (account t).tally.bytes = (account s).tally.bytes + .ofNat counted := by
  have hsame : ingestFrom s [] ((reads arrivals).map .bytes) = ingestReader s arrivals :=
    ingestFrom_map_reads s [] hends
  rw [← hsame] at hcalm
  obtain ⟨t, total, counted, hfrom, haccount, htotal, hcounted⟩ :=
    takes.ingestFrom_lines (fun _ => Arrival.ne_nil_of_mem_reads) hready hcalm
  rw [List.length_nil, Nat.zero_add] at htotal
  exact ⟨t, total, counted, hsame ▸ hfrom, htotal, hcounted, by rw [haccount, Account.bytes_add]⟩

namespace Intake

variable {Q : Type} {n : Nat} {isOpen : Q → Prop} {held : Q → List (Buffer Sentence n)}
  [Sink Q (Buffer Sentence n)]

/-- So it is by a bare intake, unless its pool has a limit and runs dry. -/
theorem ingestReader_reads (keeps : Sink.Keeps isOpen held)
    (endless : ∀ {q}, isOpen q → Sink.isFull q = false) (hn : 0 < n) {i : Intake Q n}
    (hopen : isOpen i.sink) (hclean : i.pool.Clean) {arrivals : List Arrival}
    (hends : endsWell arrivals = true) :
    (i.pool.limit ≠ none ∧
        ∃ k, (Inlet.ingestReader i arrivals).2 = .error (.fault (.poolExhausted k))) ∨
      ∃ j total counted, Inlet.ingestReader i arrivals = (j, .ok total) ∧
        total = (reads arrivals).flatten.length +
          (if lastLine i.talkers [] (reads arrivals) = [] then 0 else 1) ∧
        counted + (givenUp i.talkers [] (reads arrivals)).flatten.length = total ∧
        j.tally.bytes = i.tally.bytes + .ofNat counted := by
  have hserves : Serves isOpen i.talkers i.unlimited := ⟨hopen, hclean.unlimited, rfl⟩
  obtain ⟨j, total, counted, hfree, htotal, hcounted, hbytes⟩ :=
    (takesLines keeps endless hn i.talkers).ingestReader_reads hends hserves trivial
  rcases ingestFrom_unlimited i [] arrivals with ⟨k, hdry⟩ | hsame
  · refine .inl ⟨fun hnone => ?_, k, hdry⟩
    rw [← unlimited_of_none hnone, show Inlet.ingestFrom i.unlimited [] arrivals = _ from hfree]
      at hdry
    cases hdry
  · right
    rcases hreader : Inlet.ingestReader i arrivals with ⟨j', r⟩
    rw [show Inlet.ingestFrom i [] arrivals = _ from hreader,
      show Inlet.ingestFrom i.unlimited [] arrivals = _ from hfree] at hsame
    cases hsame
    exact ⟨j', total, counted, rfl, htotal, hcounted, hbytes⟩

/-- So it is by a station, whatever its other threads do. -/
theorem ingestReader_station (hn : 0 < n) {arrivals : List Arrival}
    (hends : endsWell arrivals = true) {settings : Settings} {s : Station n}
    (hs : s.Reached settings) (hidle : s.feeder.isIdle = true)
    (others : Nat → List {a : Station.Act // a.isOwners = false})
    (hroomy : (Inlet.ingestReader (Busy.start s others) arrivals).1.roomy = true) :
    ∃ b total counted, Inlet.ingestReader (Busy.start s others) arrivals = (b, .ok total) ∧
      total = (reads arrivals).flatten.length +
        (if lastLine settings.talkers [] (reads arrivals) = [] then 0 else 1) ∧
      counted + (givenUp settings.talkers [] (reads arrivals)).flatten.length = total ∧
      b.station.tally.bytes = s.tally.bytes + .ofNat counted :=
  (Busy.takesLines hn settings.talkers settings.queueCapacity).ingestReader_reads hends
    (Busy.resting_start hs hidle others) hroomy

/-- The bytes counted and those given up make up the total, counted modulo `2 ^ 64`. -/
theorem bytes_add_givenUp {before now : UInt64} {counted given total : Nat}
    (hcounted : counted + given = total) (hbytes : now = before + .ofNat counted) :
    now + .ofNat given = before + .ofNat total := by
  rw [hbytes, UInt64.add_assoc, ← UInt64.ofNat_add, hcounted]

/-- **The total is the bytes that a stream brings, and one more if its last line has no end.**  The end
that the line is given is counted too.  Where the stream ends in a line feed, there is no such line.
It is so of a station whatever its other threads do, as long as the channel of sentences is found open
and with room.  Of a bare intake only a pool that has a limit may run dry before. -/
theorem ingestReader_total (keeps : Sink.Keeps isOpen held)
    (endless : ∀ {q}, isOpen q → Sink.isFull q = false) (hn : 0 < n) {i : Intake Q n}
    (hopen : isOpen i.sink) (hclean : i.pool.Clean) {arrivals : List Arrival}
    (hends : endsWell arrivals = true) :
    ((i.pool.limit ≠ none ∧
        ∃ k, (Inlet.ingestReader i arrivals).2 = .error (.fault (.poolExhausted k))) ∨
      (Inlet.ingestReader i arrivals).2 = .ok ((reads arrivals).flatten.length +
        if lastLine i.talkers [] (reads arrivals) = [] then 0 else 1)) ∧
    (∀ {settings : Settings} {s : Station n}, s.Reached settings → s.feeder.isIdle = true →
      ∀ others, (Inlet.ingestReader (Busy.start s others) arrivals).1.roomy = true →
        (Inlet.ingestReader (Busy.start s others) arrivals).2 =
          .ok ((reads arrivals).flatten.length +
            if lastLine settings.talkers [] (reads arrivals) = [] then 0 else 1)) ∧
    (∀ {talkers : Talkers}, [Ascii.lineFeed] <:+ (reads arrivals).flatten →
      lastLine talkers [] (reads arrivals) = []) := by
  refine ⟨?bare, ?station, lastLine_eq_nil⟩
  case bare =>
    rcases ingestReader_reads keeps endless hn hopen hclean hends with
      hdry | ⟨j, total, -, hreader, rfl, -, -⟩
    · exact .inl hdry
    · exact .inr (by rw [hreader])
  case station =>
    intro settings s hs hidle others hroomy
    obtain ⟨b, total, -, hreader, rfl, -, -⟩ := ingestReader_station hn hends hs hidle others hroomy
    rw [hreader]

/-- A sentence in two reads, one of them made again, and what lies behind the end of the stream. -/
theorem ingestReader_total_of_two :
    let i : Intake (Ledger (Buffer Sentence 1)) 1 := ⟨.any, .empty none, ⟨[]⟩, .zero⟩
    let arrivals := [.bytes (Ascii.ofString "!AIVDM,1,1,,A,w0h"), .interrupted,
      .bytes (Ascii.ofString ",2*0B\r\n"), .bytes [], .failed "broken pipe"]
    let s := Busy.start Busy.narrow Busy.everyone
    endsWell arrivals = true ∧ Busy.narrow.Reached Station.tight ∧
      Busy.narrow.feeder.isIdle = true ∧ (Inlet.ingestReader s arrivals).1.roomy = true ∧
      [Ascii.lineFeed] <:+ (reads arrivals).flatten ∧
      ((Inlet.ingestReader i arrivals).2 = .ok ((reads arrivals).flatten.length +
          if lastLine .any [] (reads arrivals) = [] then 0 else 1) ∧
        (Inlet.ingestReader s arrivals).2 = .ok ((reads arrivals).flatten.length +
          if lastLine .any [] (reads arrivals) = [] then 0 else 1) ∧
        lastLine .any [] (reads arrivals) = []) ∧
      (reads arrivals).flatten.length = 24 := by
  intro i arrivals s
  have hends : endsWell arrivals = true := by decide
  have hroomy : (Inlet.ingestReader s arrivals).1.roomy = true := by decide +kernel
  have hline : [Ascii.lineFeed] <:+ (reads arrivals).flatten := by decide +kernel
  obtain ⟨hbare, hstation, hlast⟩ := ingestReader_total Ledger.keeps (fun _ => rfl) (by decide)
    (i := i) trivial (fun _ h => absurd h List.not_mem_nil) hends
  have hbare' := hbare.resolve_left fun h => h.1 rfl
  exact ⟨hends, Busy.reached_narrow, rfl, hroomy, hline,
    ⟨hbare', hstation Busy.reached_narrow rfl Busy.everyone hroomy, hlast hline⟩, by decide +kernel⟩

/-- Of a last line without an end one byte more is counted than it has. -/
theorem ingestReader_overcounts :
    let i : Intake (Ledger (Buffer Sentence 4)) 4 := ⟨.any, .empty none, ⟨[]⟩, .zero⟩
    let line := Ascii.ofString "!AIVDM,1,1,,A,w0h,2*0B"
    line.length = 22 ∧ (Inlet.ingestReader i [.bytes line]).2 = .ok 23 := by
  decide +kernel

/-- **The bytes counted and the bytes of the lines that are given up make up the total.**  Every line
that is given up has no end and is too long to be a sentence, so where no piece of the stream without a
line feed is as long as that, none is, and all bytes are counted.  It is so of a station whatever its
other threads do, as long as the channel of sentences is found open and with room.  Of a bare intake
only a pool that has a limit may run dry before. -/
theorem ingestReader_bytes (keeps : Sink.Keeps isOpen held)
    (endless : ∀ {q}, isOpen q → Sink.isFull q = false) (hn : 0 < n) {i : Intake Q n}
    (hopen : isOpen i.sink) (hclean : i.pool.Clean) {arrivals : List Arrival}
    (hends : endsWell arrivals = true) :
    ((i.pool.limit ≠ none ∧
        ∃ k, (Inlet.ingestReader i arrivals).2 = .error (.fault (.poolExhausted k))) ∨
      ∃ j total, Inlet.ingestReader i arrivals = (j, .ok total) ∧
        j.tally.bytes + .ofNat (givenUp i.talkers [] (reads arrivals)).flatten.length =
          i.tally.bytes + .ofNat total) ∧
    (∀ {settings : Settings} {s : Station n}, s.Reached settings → s.feeder.isIdle = true →
      ∀ others, (Inlet.ingestReader (Busy.start s others) arrivals).1.roomy = true →
        ∃ b total, Inlet.ingestReader (Busy.start s others) arrivals = (b, .ok total) ∧
          b.station.tally.bytes +
              .ofNat (givenUp settings.talkers [] (reads arrivals)).flatten.length =
            s.tally.bytes + .ofNat total) ∧
    (∀ {talkers : Talkers}, ∀ line ∈ givenUp talkers [] (reads arrivals),
      lines talkers line = ([], line) ∧ Limits.tailBytes < line.length ∧
        line <:+: (reads arrivals).flatten) ∧
    (∀ {talkers : Talkers}, (∀ piece, piece <:+: (reads arrivals).flatten →
        Ascii.lineFeed ∉ piece → piece.length ≤ Limits.tailBytes) →
      givenUp talkers [] (reads arrivals) = []) := by
  refine ⟨?bare, ?station, fun _ => mem_givenUp, givenUp_eq_nil⟩
  case bare =>
    rcases ingestReader_reads keeps endless hn hopen hclean hends with
      hdry | ⟨j, total, counted, hreader, -, hcounted, hbytes⟩
    · exact .inl hdry
    · exact .inr ⟨j, total, hreader, bytes_add_givenUp hcounted hbytes⟩
  case station =>
    intro settings s hs hidle others hroomy
    obtain ⟨b, total, counted, hreader, -, hcounted, hbytes⟩ :=
      ingestReader_station hn hends hs hidle others hroomy
    exact ⟨b, total, hreader, bytes_add_givenUp hcounted hbytes⟩

/-- A line that is given up between two that are not. -/
theorem ingestReader_bytes_of_three :
    let i : Intake (Ledger (Buffer Sentence 1)) 1 := ⟨.any, .empty none, ⟨[]⟩, .zero⟩
    let long := List.replicate 86 120
    let arrivals := [.bytes (Ascii.ofString "!AIVDM,1,1,,A,w0h,2*0B\r\n"), .bytes long,
      .bytes (Ascii.ofString "x\n!AIVDM,1,1,,A,w0h,2*0B")]
    let s := Busy.start Busy.narrow Busy.everyone
    endsWell arrivals = true ∧ Busy.narrow.Reached Station.tight ∧
      Busy.narrow.feeder.isIdle = true ∧ (Inlet.ingestReader s arrivals).1.roomy = true ∧
      ((∃ j total, Inlet.ingestReader i arrivals = (j, .ok total) ∧
          j.tally.bytes + .ofNat (givenUp .any [] (reads arrivals)).flatten.length =
            i.tally.bytes + .ofNat total) ∧
        (∃ b total, Inlet.ingestReader s arrivals = (b, .ok total) ∧
          b.station.tally.bytes + .ofNat (givenUp .any [] (reads arrivals)).flatten.length =
            Busy.narrow.tally.bytes + .ofNat total) ∧
        (∀ line ∈ givenUp .any [] (reads arrivals), lines .any line = ([], line) ∧
          Limits.tailBytes < line.length ∧ line <:+: (reads arrivals).flatten) ∧
        ((∀ piece, piece <:+: (reads arrivals).flatten → Ascii.lineFeed ∉ piece →
            piece.length ≤ Limits.tailBytes) → givenUp .any [] (reads arrivals) = [])) ∧
      (Inlet.ingestReader s arrivals).2 = .ok 135 ∧
      (Inlet.ingestReader s arrivals).1.station.tally.bytes = 49 ∧
      givenUp .any [] (reads arrivals) = [long] := by
  intro i long arrivals s
  have hends : endsWell arrivals = true := by decide
  have hroomy : (Inlet.ingestReader s arrivals).1.roomy = true := by decide +kernel
  have hresult : (Inlet.ingestReader s arrivals).2 = .ok 135 ∧
      (Inlet.ingestReader s arrivals).1.station.tally.bytes = 49 ∧
      givenUp .any [] (reads arrivals) = [long] := by
    decide +kernel
  obtain ⟨hbare, hstation, hlong, hshort⟩ := ingestReader_bytes Ledger.keeps (fun _ => rfl)
    (by decide) (i := i) trivial (fun _ h => absurd h List.not_mem_nil) hends
  have hbare' := hbare.resolve_left fun h => h.1 rfl
  exact ⟨hends, Busy.reached_narrow, rfl, hroomy,
    ⟨hbare', hstation Busy.reached_narrow rfl Busy.everyone hroomy, hlong, hshort⟩, hresult⟩

/-- Of a line that is given up no byte is counted, of the same line with its end every one. -/
theorem ingestReader_undercounts :
    let i : Intake (Ledger (Buffer Sentence 4)) 4 := ⟨.any, .empty none, ⟨[]⟩, .zero⟩
    let long := List.replicate 86 120
    let counts (stream : List UInt8) :=
      ((Inlet.ingestReader i [.bytes stream]).2, (Inlet.ingestReader i [.bytes stream]).1.tally.bytes)
    counts long = (.ok 86, 0) ∧ counts (long ++ [Ascii.lineFeed]) = (.ok 87, 87) := by
  decide +kernel

end Intake

end Ais
