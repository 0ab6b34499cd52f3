import Ais.Proofs.Stage.GivenUp
import Ais.Stage.Inlet

/-!
# Intake — a stream read by read

A reader brings a stream in reads, cut anywhere, and the last line gets its end with the stream.  What
a read leaves of a line without an end is offered again with the next read, unless it has grown longer
than a sentence can be: then it is dropped and counted, and what comes next begins a new line
(`readLines`).  Anything that takes in the lines of what it is offered (`Inlet.TakesLines`) takes in
those of a stream, and says how many bytes that was in all: `Inlet.TakesLines.ingestFrom_lines`.

Where no line feed stands between two commas these are the lines of one piece, which has a line feed
wherever a line was given up (`sealed`, `readLines_eq`), and where no line is given up that is the
stream as it stands (`sealed_eq`).
-/

namespace Ais

namespace Intake

variable {talkers : Talkers} {bytes rest : List UInt8}

/-! ### Given line feeds -/

/-- What the reads bring behind `tail`, with a line feed wherever a line is given up and at the end. -/
def sealed (talkers : Talkers) (tail : List UInt8) : List (List UInt8) → List UInt8
  | []           => [Ascii.lineFeed]
  | read :: more =>
    let rest := (lines talkers (tail ++ read)).2
    read ++
      if Limits.tailBytes < rest.length then Ascii.lineFeed :: sealed talkers [] more
      else sealed talkers rest more

/-- A line feed between two commas at the front of a stream is one in the stream. -/
theorem BreaksField.of_front (h : BreaksField bytes) (hbegins : bytes <+: rest) : BreaksField rest :=
  h.trans hbegins.isInfix

/-- A line feed at the end stands between no two commas. -/
theorem BreaksField.of_lineFeed (h : BreaksField (bytes ++ [Ascii.lineFeed])) : BreaksField bytes := by
  obtain ⟨front, back, heq⟩ := h
  rcases List.eq_nil_or_concat back with rfl | ⟨back, b, rfl⟩
  · rw [List.append_nil, show [Ascii.comma, Ascii.lineFeed, Ascii.comma] =
      [Ascii.comma, Ascii.lineFeed] ++ [Ascii.comma] from rfl, ← List.append_assoc] at heq
    have hlast := (List.append_inj' heq rfl).2
    exact absurd hlast (by decide)
  · rw [List.concat_eq_append, ← List.append_assoc] at heq
    exact ⟨front, back, (List.append_inj' heq rfl).1⟩

/-- The first byte that the reads bring is one of theirs, or the last line feed. -/
theorem take_sealed (tail : List UInt8) {reads : List (List UInt8)} (hreads : ∀ r ∈ reads, r ≠ []) :
    (sealed talkers tail reads).take 1 = (reads.flatten ++ [Ascii.lineFeed]).take 1 := by
  cases reads with
  | nil => rfl
  | cons read more =>
      obtain ⟨b, r, rfl⟩ := List.exists_cons_of_ne_nil (hreads read List.mem_cons_self)
      rfl

/-- What a read leaves is read again with what the next ones bring, or is a line of its own. -/
theorem lines_sealed {tail read rest : List UInt8} {ls : List Line} {more : List (List UInt8)}
    (hlines : lines talkers (tail ++ read) = (ls, rest)) (hmore : ∀ r ∈ more, r ≠ [])
    (hbreaks : ¬ BreaksField (tail ++ read ++ more.flatten)) :
    lines talkers (tail ++ sealed talkers tail (read :: more)) =
      if Limits.tailBytes < rest.length then
        (ls ++ none :: (lines talkers (sealed talkers [] more)).1,
          (lines talkers (sealed talkers [] more)).2)
      else (ls ++ (lines talkers (rest ++ sealed talkers rest more)).1,
        (lines talkers (rest ++ sealed talkers rest more)).2) := by
  simp only [sealed, hlines]
  rw [← List.append_assoc]
  by_cases hlong : Limits.tailBytes < rest.length
  · rw [if_pos hlong, if_pos hlong]
    have hbreaks' : ¬ BreaksField (tail ++ read ++ [Ascii.lineFeed]) := fun h =>
      hbreaks (h.of_lineFeed.of_front (List.prefix_append _ _))
    have hline := line?_of_long (hlines ▸ lines_left talkers (tail ++ read)) hlong
      (sealed talkers [] more)
    rw [lines_append_of_take hbreaks', hlines, lines_of_some hline]
  · rw [if_neg hlong, if_neg hlong]
    have hbreaks' : ¬ BreaksField (tail ++ read ++ (sealed talkers rest more).take 1) := fun h => by
      rw [take_sealed rest hmore] at h
      refine hbreaks (h.of_front ?_).of_lineFeed
      rw [List.append_assoc (tail ++ read)]
      exact (List.prefix_append_right_inj _).mpr (List.take_prefix 1 _)
    rw [lines_append_of_take hbreaks', hlines]

/-- The lines that the reads bring, those that are given up among them, to the end of the last one. -/
def readLines (talkers : Talkers) (tail : List UInt8) : List (List UInt8) → List Line
  | []           => (lines talkers (tail ++ [Ascii.lineFeed])).1
  | read :: more =>
    let (ls, rest) := lines talkers (tail ++ read)
    if Limits.tailBytes < rest.length then ls ++ none :: readLines talkers [] more
    else ls ++ readLines talkers rest more

/-- **Line feeds given, the lines are those of one piece.** -/
theorem readLines_eq {tail : List UInt8} {reads : List (List UInt8)} (hreads : ∀ r ∈ reads, r ≠ [])
    (hbreaks : ¬ BreaksField (tail ++ reads.flatten)) :
    readLines talkers tail reads = (lines talkers (tail ++ sealed talkers tail reads)).1 := by
  induction reads generalizing tail with
  | nil => rfl
  | cons read more ih =>
      have hmore := (List.forall_mem_cons.mp hreads).2
      rw [List.flatten_cons, ← List.append_assoc] at hbreaks
      have hsuffix := suffix_lines talkers (tail ++ read)
      rcases hlines : lines talkers (tail ++ read) with ⟨ls, rest⟩
      rw [hlines] at hsuffix
      rw [lines_sealed hlines hmore hbreaks, readLines, hlines]
      by_cases hlong : Limits.tailBytes < rest.length
      · have hbreaks' : ¬ BreaksField ([] ++ more.flatten) := fun h =>
          hbreaks (h.of_suffix (List.suffix_append _ _))
        simp only [if_pos hlong]
        rw [ih hmore hbreaks', List.nil_append]
      · have hbreaks' : ¬ BreaksField (rest ++ more.flatten) := fun h =>
          hbreaks (h.of_suffix (List.suffix_append_self_iff.mpr hsuffix))
        simp only [if_neg hlong]
        rw [ih hmore hbreaks']

/-! ### What has been taken in -/

/-- What the sentences show that were delivered, and what has been counted. -/
structure Account where
  delivered : List (Header × List UInt8)
  tally     : Tally

namespace Account

variable (a : Account) (ls more : List Line) (counted later : Nat)

/-- Lines are taken in, and bytes are counted. -/
def add : Account :=
  ⟨a.delivered ++ (sentences ls).map (·.shown), (a.tally.addLines ls).addBytes counted⟩

/-- No lines and no bytes change nothing. -/
theorem add_nil : a.add [] 0 = a := by
  rw [add, sentences_nil, List.map_nil, List.append_nil, addBytes_zero]
  rfl

/-- What is taken in one after the other may be taken in at once. -/
theorem add_add : (a.add ls counted).add more later = a.add (ls ++ more) (counted + later) := by
  simp only [add, sentences_append, List.map_append, List.append_assoc, addBytes_addLines,
    addBytes_addBytes, Tally.addLines_append]

/-- Of bytes so many more have been counted. -/
theorem bytes_add : (a.add ls counted).tally.bytes = a.tally.bytes + .ofNat counted := by
  rw [add, Tally.addBytes, bytes_addLines]

end Account

end Intake

/-! ### Read by read -/

namespace Inlet

open Intake

variable {σ : Type} [Inlet σ]

/-- An inlet that is `Ready` takes in the lines of what it is offered, as long as all is `Calm`: then
there is room.  Whether it has been is known from what comes later. -/
structure TakesLines (talkers : Talkers) (account : σ → Account) (Ready Calm : σ → Prop) : Prop where
  room           : ∀ {s}, Ready s → Calm s → isFull s = false ∧ isClosed s = false
  offer          : ∀ {s bytes}, Ready s → Calm (offer s bytes).1 → bytes ≠ [] →
    ∃ t, offer s bytes = (t, .ok (bytes.length - (lines talkers bytes).2.length)) ∧ Ready t ∧
      account t = (account s).add (lines talkers bytes).1
        (bytes.length - (lines talkers bytes).2.length)
  countLine      : ∀ {s}, Ready s →
    Ready (countLine s) ∧ account (countLine s) = (account s).add [none] 0
  calm_offer     : ∀ {s bytes}, Calm (Inlet.offer s bytes).1 → Calm s
  calm_await     : ∀ {s : σ}, Calm (await s) → Calm s
  calm_countLine : ∀ {s : σ}, Calm (Inlet.countLine s) → Calm s

namespace TakesLines

variable {talkers : Talkers} {account : σ → Account} {Ready Calm : σ → Prop} {s : σ}
  {bytes tail : List UInt8}

/-! What has been calm at the end has been calm before. -/

/-- So it is of an offer until all is taken: before it, and after its first round. -/
theorem calm_offerAll (takes : TakesLines talkers account Ready Calm) {waited : Bool}
    (h : Calm (offerAll s bytes waited).1) :
    Calm s ∧ (bytes ≠ [] → isClosed s = false → Calm (Inlet.offer s bytes).1) := by
  fun_induction offerAll s bytes waited with
  | case1 s bytes waited hempty => exact ⟨h, fun hne => absurd (by simpa using hempty) hne⟩
  | case2 s bytes waited hempty hclosed =>
      refine ⟨h, fun _ hopen => ?_⟩
      rw [hclosed] at hopen
      cases hopen
  | case3 s bytes waited hempty hopen t stop hoffer
  | case5 s bytes hempty hopen t taken hoffer
  | case7 s bytes waited hempty hopen t hroom hoffer =>
      have hcalm : Calm (Inlet.offer s bytes).1 := by rw [hoffer]; exact h
      exact ⟨takes.calm_offer hcalm, fun _ _ => hcalm⟩
  | case4 s bytes waited hempty hopen t taken hoffer hfull hpos ih
  | case6 s bytes waited hempty hopen t taken hoffer hfull hnone hwaited ih =>
      have hcalm : Calm (Inlet.offer s bytes).1 := by
        rw [hoffer]
        exact takes.calm_await (ih h).1
      exact ⟨takes.calm_offer hcalm, fun _ _ => hcalm⟩
  | case8 s bytes waited hempty hopen t taken hoffer hroom hsome ih =>
      have hcalm : Calm (Inlet.offer s bytes).1 := by
        rw [hoffer]
        exact (ih h).1
      exact ⟨takes.calm_offer hcalm, fun _ _ => hcalm⟩

theorem calm_closeLine (takes : TakesLines talkers account Ready Calm)
    (h : Calm (closeLine s tail).1) : Calm s := by
  rw [closeLine] at h
  split at h
  · exact h
  · exact (takes.calm_offerAll h).1

theorem calm_ingestAll (takes : TakesLines talkers account Ready Calm)
    (h : Calm (ingestAll s bytes).1) : Calm s := by
  have h' : Calm (offerAll s bytes false).1 := h
  exact (takes.calm_offerAll h').1

/-- What has been calm after all reads has been calm after the first. -/
theorem calm_first (takes : TakesLines talkers account Ready Calm) {chunk : List UInt8}
    {more : List Arrival} (hlater : ∀ {t tail}, Calm (ingestFrom t tail more).1 → Calm t)
    (hne : ¬chunk.isEmpty = true) (h : Calm (ingestFrom s tail (.bytes chunk :: more)).1) :
    Calm (ingestAll s (tail ++ chunk)).1 := by
  rw [ingestFrom, if_neg hne] at h
  rcases hall : ingestAll s (tail ++ chunk) with ⟨t, stop | taken⟩ <;> rw [hall] at h
  · exact h
  · simp only at h
    split at h
    · exact takes.calm_countLine (hlater h)
    · exact hlater h

theorem calm_ingestFrom (takes : TakesLines talkers account Ready Calm) {arrivals : List Arrival}
    (h : Calm (ingestFrom s tail arrivals).1) : Calm s := by
  induction arrivals generalizing s tail with
  | nil => exact takes.calm_closeLine h
  | cons arrival more ih =>
      cases arrival with
      | interrupted => exact ih h
      | failed text => exact h
      | bytes chunk =>
          by_cases hempty : chunk.isEmpty = true
          · rw [ingestFrom, if_pos hempty] at h
            exact takes.calm_closeLine h
          · exact takes.calm_ingestAll (takes.calm_first ih hempty h)

/-! The lines are taken in. -/

/-- **What is offered until all has been taken** is taken in line by line, to the last line with an
end. -/
theorem offerAll_lines (takes : TakesLines talkers account Ready Calm) {waited : Bool}
    (hready : Ready s) (hcalm : Calm (offerAll s bytes waited).1) :
    ∃ t, offerAll s bytes waited = (t, .ok (lines talkers bytes).2) ∧ Ready t ∧
      account t = (account s).add (lines talkers bytes).1
        (bytes.length - (lines talkers bytes).2.length) := by
  induction hlength : bytes.length using Nat.strongRecOn generalizing s bytes waited with
  | ind m ih =>
      subst hlength
      by_cases hne : bytes = []
      · subst hne
        rw [lines_nil, offerAll]
        exact ⟨s, rfl, hready, ((account s).add_nil).symm⟩
      obtain ⟨hcalm', hoffered⟩ := takes.calm_offerAll hcalm
      have hopen := (takes.room hready hcalm').2
      obtain ⟨t, hoffer, hready', haccount⟩ := takes.offer hready (hoffered hne hopen) hne
      have hcalm'' : Calm t := by
        have h := hoffered hne hopen
        rwa [hoffer] at h
      have hfull := (takes.room hready' hcalm'').1
      have hround := offerAll_of_offer waited (by simpa using hne) (by simp [hopen]) hoffer
      rw [if_neg (by simp [hfull])] at hround
      have hlines : lines talkers bytes = ((lines talkers bytes).1, (lines talkers bytes).2) := rfl
      have hsuffix := suffix_lines talkers bytes
      have hleft := lines_left talkers bytes
      generalize lines talkers bytes = found at *
      obtain ⟨ls, rest⟩ := found
      simp only at *
      by_cases hnone : bytes.length - rest.length = 0
      · rw [if_pos hnone] at hround
        obtain rfl : rest = bytes := hsuffix.eq_of_length_le (by omega)
        exact ⟨t, hround, hready', haccount⟩
      · -- what is left is offered once more, and left again
        have hrest : bytes.drop (bytes.length - rest.length) = rest :=
          (List.suffix_iff_eq_drop.mp hsuffix).symm
        rw [if_neg hnone, hrest] at hround
        rw [hround] at hcalm
        obtain ⟨u, hleft', hready'', haccount'⟩ := ih rest.length (by omega) hready' hcalm rfl
        rw [hleft, Nat.sub_self] at *
        refine ⟨u, hround.trans hleft', hready'', ?_⟩
        rw [haccount', haccount, Account.add_add, List.append_nil]
        rfl

/-- What is taken in of bytes is all but what is left of them, and it is counted. -/
theorem ingestAll_lines (takes : TakesLines talkers account Ready Calm) (hready : Ready s)
    (hcalm : Calm (ingestAll s bytes).1) :
    ∃ t taken, ingestAll s bytes = (t, .ok taken) ∧ bytes.drop taken = (lines talkers bytes).2 ∧
      taken + (lines talkers bytes).2.length = bytes.length ∧ Ready t ∧
      account t = (account s).add (lines talkers bytes).1 taken := by
  obtain ⟨t, hoffer, hready', haccount⟩ := takes.offerAll_lines hready hcalm
  have hsuffix := suffix_lines talkers bytes
  have hle := hsuffix.length_le
  exact ⟨t, _, by rw [ingestAll, hoffer]; rfl, (List.suffix_iff_eq_drop.mp hsuffix).symm,
    by omega, hready', haccount⟩

/-- The last line gets its end, if there is one; the end is counted. -/
theorem closeLine_lines (takes : TakesLines talkers account Ready Calm) (hready : Ready s)
    (hcalm : Calm (closeLine s tail).1) :
    ∃ t total, closeLine s tail = (t, .ok total) ∧
      total = tail.length + (if tail = [] then 0 else 1) ∧
      account t = (account s).add (lines talkers (tail ++ [Ascii.lineFeed])).1 total := by
  by_cases hne : tail = []
  · have hnone : lines talkers [Ascii.lineFeed] = lines talkers [] := lines_congr rfl
    rw [hne, List.nil_append, hnone, lines_nil]
    exact ⟨s, 0, by rw [closeLine]; rfl, rfl, ((account s).add_nil).symm⟩
  · have hclose : closeLine s tail = ingestAll s (tail ++ [Ascii.lineFeed]) := by
      rw [closeLine, if_neg (by simpa using hne)]
    rw [hclose] at hcalm ⊢
    obtain ⟨t, total, hingest, -, hlength, -, haccount⟩ := takes.ingestAll_lines hready hcalm
    rw [lines_lineFeed, List.length_append] at hlength
    exact ⟨t, total, hingest, by rw [if_neg hne]; exact hlength, haccount⟩

/-- **A stream is taken in read by read.**  The total is the bytes that the reads bring, and one for
the end of a last line without one; of these all are counted but those of lines that are given up. -/
theorem ingestFrom_lines (takes : TakesLines talkers account Ready Calm)
    {reads : List (List UInt8)} (hreads : ∀ r ∈ reads, r ≠ []) (hready : Ready s)
    (hcalm : Calm (ingestFrom s tail (reads.map .bytes)).1) :
    ∃ t total counted, ingestFrom s tail (reads.map .bytes) = (t, .ok total) ∧
      account t = (account s).add (readLines talkers tail reads) counted ∧
      total = tail.length + reads.flatten.length +
        (if lastLine talkers tail reads = [] then 0 else 1) ∧
      counted + (givenUp talkers tail reads).flatten.length = total := by
  induction reads generalizing s tail with
  | nil =>
      obtain ⟨t, total, hclose, htotal, haccount⟩ := takes.closeLine_lines hready hcalm
      exact ⟨t, total, total, hclose, haccount, htotal, rfl⟩
  | cons read more ih =>
      obtain ⟨hread, hmore⟩ := List.forall_mem_cons.mp hreads
      have hisEmpty : ¬read.isEmpty = true := by simpa using hread
      rw [List.map_cons] at hcalm ⊢
      have hcalm' := takes.calm_first takes.calm_ingestFrom hisEmpty hcalm
      rw [ingestFrom, if_neg hisEmpty] at hcalm ⊢
      obtain ⟨t, taken, hingest, hdrop, hlength, hready', haccount⟩ :=
        takes.ingestAll_lines hready hcalm'
      rw [hingest] at hcalm ⊢
      rw [readLines, lastLine, givenUp, List.flatten_cons, List.length_append]
      rw [List.length_append] at hlength
      generalize lines talkers (tail ++ read) = found at *
      obtain ⟨ls, rest⟩ := found
      simp only [hdrop] at hlength haccount hcalm ⊢
      by_cases hlong : Limits.tailBytes < rest.length
      · -- the line is given up, and what comes next begins a new one
        rw [if_pos hlong] at hcalm
        obtain ⟨hready'', hcounted⟩ := takes.countLine hready'
        obtain ⟨u, total, counted, hfrom, haccount', htotal, hcounted'⟩ :=
          ih hmore hready'' hcalm
        simp only [if_pos hlong, hfrom]
        rw [List.length_nil] at htotal
        refine ⟨u, taken + rest.length + total, taken + counted, rfl, ?_, by omega, ?_⟩
        · rw [haccount', hcounted, haccount, Account.add_add, Account.add_add, Nat.zero_add]
          rfl
        · rw [List.flatten_cons, List.length_append]
          omega
      · rw [if_neg hlong] at hcalm
        obtain ⟨u, total, counted, hfrom, haccount', htotal, hcounted⟩ := ih hmore hready' hcalm
        simp only [if_neg hlong, hfrom]
        refine ⟨u, taken + total, taken + counted, rfl, ?_, by omega, by omega⟩
        rw [haccount', haccount, Account.add_add]

end TakesLines

end Inlet

namespace Intake

/-! ### Nothing given up -/

variable {talkers : Talkers}

/-- No read leaves more of a line without an end than a sentence can be long. -/
def ShortTails (talkers : Talkers) (reads : List (List UInt8)) : Prop :=
  ∀ {earlier}, earlier <+: reads → (lines talkers earlier.flatten).2.length ≤ Limits.tailBytes

/-- Where no line is given up, only the last one is given an end. -/
theorem sealed_eq {tail : List UInt8} {reads : List (List UInt8)}
    (hbreaks : ¬ BreaksField (tail ++ reads.flatten))
    (hshort : ∀ {earlier}, earlier <+: reads →
      (lines talkers (tail ++ earlier.flatten)).2.length ≤ Limits.tailBytes) :
    sealed talkers tail reads = reads.flatten ++ [Ascii.lineFeed] := by
  induction reads generalizing tail with
  | nil => rfl
  | cons read more ih =>
      rw [List.flatten_cons, ← List.append_assoc] at hbreaks
      have hsuffix := suffix_lines talkers (tail ++ read)
      have hfirst := hshort (List.prefix_append [read] more)
      rw [List.flatten_singleton] at hfirst
      rw [sealed, if_neg (Nat.not_lt.mpr hfirst), List.flatten_cons, List.append_assoc]
      congr 1
      refine ih (fun h => hbreaks (h.of_suffix (List.suffix_append_self_iff.mpr hsuffix))) ?_
      intro earlier hearlier
      have hbegins := hshort ((List.prefix_cons_inj read).mpr hearlier)
      have hflatten : earlier.flatten <+: more.flatten := by
        obtain ⟨later, rfl⟩ := hearlier
        rw [List.flatten_append]
        exact List.prefix_append _ _
      have hbreaks' : ¬ BreaksField (tail ++ read ++ earlier.flatten) := fun h =>
        hbreaks (h.of_front ((List.prefix_append_right_inj _).mpr hflatten))
      rw [List.flatten_cons, ← List.append_assoc, lines_append hbreaks'] at hbegins
      exact hbegins

/-! ### A bare intake -/

variable {Q : Type} {n : Nat} {isOpen : Q → Prop} {held : Q → List (Buffer Sentence n)}
  [Sink Q (Buffer Sentence n)]

/-- An intake that has taken nothing in yet, with a sink and a pool without bounds. -/
def blank (n : Nat) (talkers : Talkers) : Intake (Ledger (Buffer Sentence n)) n :=
  ⟨talkers, .empty none, ⟨[]⟩, .zero⟩

/-- It takes in the lines that have their end. -/
theorem ingest_blank (hn : 0 < n) (talkers : Talkers) (bytes : List UInt8) :
    ∃ k taken, (blank n talkers).ingest bytes = (k, .ok taken) ∧
      delivered Ledger.entries k.sink = (sentences (lines talkers bytes).1).map (·.shown) ∧
      k.tally.sentences = .ofNat (sentences (lines talkers bytes).1).length ∧
      k.tally.malformed = .ofNat ((lines talkers bytes).1.countP (·.isNone)) := by
  obtain ⟨k, taken, hingest, htakes, -⟩ := ingest_lines Ledger.keeps (fun _ => rfl) hn
    (i := blank n talkers) trivial Pool.ready_empty bytes
  obtain ⟨hsentences, hmalformed⟩ := counts_addLines .zero (lines talkers bytes).1
  refine ⟨_, taken, hingest, htakes.delivered, ?_, ?_⟩
  · exact (congrArg Tally.sentences htakes.tally).trans (hsentences.trans (UInt64.zero_add _))
  · exact (congrArg Tally.malformed htakes.tally).trans (hmalformed.trans (UInt64.zero_add _))

/-- What a bare intake has delivered and counted. -/
def account (held : Q → List (Buffer Sentence n)) (i : Intake Q n) : Account :=
  ⟨delivered held i.sink, i.tally⟩

/-- An open sink, batches without end, and so many talkers. -/
structure Serves (isOpen : Q → Prop) (talkers : Talkers) (i : Intake Q n) : Prop where
  isOpen  : isOpen i.sink
  ready   : i.pool.Ready
  talkers : i.talkers = talkers

/-- A bare intake takes lines in if its sink and its pool have no bounds. -/
theorem takesLines (keeps : Sink.Keeps isOpen held)
    (endless : ∀ {q}, isOpen q → Sink.isFull q = false) (hn : 0 < n) (talkers : Talkers) :
    Inlet.TakesLines talkers (account held) (Serves (n := n) isOpen talkers) (fun _ => True) where
  room h _       := ⟨endless h.isOpen, keeps.isClosed h.isOpen⟩
  offer {i bytes} h _ _ := by
    obtain ⟨hopen, hready, rfl⟩ := h
    obtain ⟨j, taken, hingest, htakes, hlength, -, -⟩ :=
      ingest_lines keeps endless hn hopen hready bytes
    obtain rfl : bytes.length - (lines i.talkers bytes).2.length = taken := by omega
    refine ⟨_, hingest, ⟨htakes.isOpen, htakes.ready, htakes.talkers⟩, ?_⟩
    simp only [account, Account.add, htakes.delivered, htakes.tally]
  countLine {i} h := by
    refine ⟨⟨h.isOpen, h.ready, h.talkers⟩, ?_⟩
    simp only [Account.add, addBytes_zero]
    exact congrArg (Account.mk · _) (List.append_nil _).symm
  calm_offer _     := trivial
  calm_await _     := trivial
  calm_countLine _ := trivial

end Intake

end Ais
