import Ais.Proofs.Stage.Intake

/-!
# Intake — a stream in pieces

A stream arrives in pieces, cut anywhere.  Each piece is offered behind what the last one left over.
Whatever the cuts, the sentences delivered are the same as if the whole stream had been there at
once, and so are the count of everything and the bytes left over in the end
(`ingestPieces_eq_ingest`).
-/

namespace Ais.Intake

variable {Q : Type} {n : Nat} [Sink Q (Buffer Sentence n)]

/-- Takes pieces in one after the other, each behind what was left over; what comes out is how many
bytes were taken in all, and those left over in the end. -/
def ingestPieces (i : Intake Q n) (tail : List UInt8) :
    List (List UInt8) → Intake Q n × Except Halt (Nat × List UInt8)
  | []            => (i, .ok (0, tail))
  | piece :: more =>
    match i.ingest (tail ++ piece) with
    | (i, .error stop) => (i, .error stop)
    | (i, .ok taken)   =>
      let (i, r) := i.ingestPieces ((tail ++ piece).drop taken) more
      (i, r.map fun (total, tail) => (taken + total, tail))

/-! ### Counting bytes and lines -/

theorem addBytes_addLines (t : Tally) (taken : Nat) (ls : List Line) :
    (t.addBytes taken).addLines ls = (t.addLines ls).addBytes taken := by
  induction ls generalizing t with
  | nil => rfl
  | cons line ls ih =>
      cases line with
      | none => exact ih t.addMalformed
      | some _ => exact ih t.addSentence

theorem addBytes_addBytes (t : Tally) (taken more : Nat) :
    (t.addBytes taken).addBytes more = t.addBytes (taken + more) := by
  simp only [Tally.addBytes, UInt64.ofNat_add, UInt64.add_assoc]

theorem addBytes_zero (t : Tally) : t.addBytes 0 = t := by
  simp [Tally.addBytes]

/-- Lines are counted apart from their bytes. -/
theorem bytes_addLines (t : Tally) (ls : List Line) : (t.addLines ls).bytes = t.bytes := by
  induction ls generalizing t with
  | nil => rfl
  | cons line ls ih =>
      cases line with
      | none => exact ih t.addMalformed
      | some _ => exact ih t.addSentence

/-! ### Piece after piece -/

variable {isOpen : Q → Prop} {held : Q → List (Buffer Sentence n)}

/-- Into a sink without bounds all lines go that have their end. -/
theorem ingest_lines (keeps : Sink.Keeps isOpen held)
    (endless : ∀ {q}, isOpen q → Sink.isFull q = false) (hn : 0 < n) {i : Intake Q n}
    (hopen : isOpen i.sink) (hready : i.pool.Ready) (bytes : List UInt8) :
    ∃ j taken, i.ingest bytes = ({ j with tally := j.tally.addBytes taken }, .ok taken) ∧
      Takes isOpen held i bytes (lines i.talkers bytes).1 j (lines i.talkers bytes).2 ∧
      taken + (lines i.talkers bytes).2.length = bytes.length ∧
      bytes.drop taken = (lines i.talkers bytes).2 ∧
      lines i.talkers (lines i.talkers bytes).2 = ([], (lines i.talkers bytes).2) := by
  obtain ⟨ls, j, rest, taken, hingest, htakes, hlength, hdrop, hstop⟩ :=
    ingest_takes keeps hn hopen hready bytes
  have hrest := hstop (endless htakes.isOpen)
  have hlines : lines i.talkers bytes = (ls, rest) := by
    rw [htakes.reads.lines_eq, hrest, List.append_nil]
  rw [hlines]
  exact ⟨j, taken, hingest, htakes, hlength, hdrop, hrest⟩

/-- Pieces are taken in as the whole stream is read line by line. -/
theorem ingestPieces_lines (keeps : Sink.Keeps isOpen held)
    (endless : ∀ {q}, isOpen q → Sink.isFull q = false) (hn : 0 < n) (pieces : List (List UInt8))
    {i : Intake Q n} (hopen : isOpen i.sink) (hready : i.pool.Ready) {tail : List UInt8}
    (htail : lines i.talkers tail = ([], tail))
    (hbreaks : ¬ BreaksField (tail ++ pieces.flatten)) :
    ∃ j total, i.ingestPieces tail pieces =
        (j, .ok (total, (lines i.talkers (tail ++ pieces.flatten)).2)) ∧
      total + (lines i.talkers (tail ++ pieces.flatten)).2.length =
        (tail ++ pieces.flatten).length ∧
      delivered held j.sink = delivered held i.sink ++
        (sentences (lines i.talkers (tail ++ pieces.flatten)).1).map (·.shown) ∧
      j.tally = (i.tally.addLines (lines i.talkers (tail ++ pieces.flatten)).1).addBytes total := by
  induction pieces generalizing i tail with
  | nil =>
      simp only [List.flatten_nil, List.append_nil, htail]
      exact ⟨i, 0, rfl, Nat.zero_add _, by simp, (addBytes_zero _).symm⟩
  | cons piece more ih =>
      rw [List.flatten_cons, ← List.append_assoc] at hbreaks ⊢
      obtain ⟨j, taken, hingest, htakes, hlength, hdrop, hrest⟩ :=
        ingest_lines keeps endless hn hopen hready (tail ++ piece)
      have hlines : lines i.talkers _ = _ := lines_append hbreaks
      have hsuffix := htakes.reads.suffix
      have htalkers := htakes.talkers
      generalize lines i.talkers (tail ++ piece) = first at *
      obtain ⟨ls, rest⟩ := first
      obtain ⟨k, total, hpieces, hsize, hdelivered, htally⟩ :=
        ih (i := { j with tally := j.tally.addBytes taken }) htakes.isOpen htakes.ready
          (htalkers ▸ hrest)
          fun h => hbreaks (h.of_suffix (List.suffix_append_self_iff.mpr hsuffix))
      simp only [htalkers] at hpieces hsize hdelivered htally
      rw [hlines]
      refine ⟨k, taken + total, ?_, ?_, ?_, ?_⟩
      · simp only [ingestPieces, hingest, hdrop, htalkers, hpieces]
        rfl
      · simp only [List.length_append] at hsize hlength ⊢
        omega
      · rw [hdelivered, htakes.delivered, sentences_append, List.map_append, List.append_assoc]
      · rw [htally, htakes.tally, Tally.addLines_append, addBytes_addLines, addBytes_addBytes]

/-- **However a stream is cut, the same is taken in**: the same sentences in the same order, the same
bytes left over, the same number of bytes in all, and the same count of everything.  The stream may
be any in which no line feed stands between two commas. -/
theorem ingestPieces_eq_ingest (keeps : Sink.Keeps isOpen held)
    (endless : ∀ {q}, isOpen q → Sink.isFull q = false) (hn : 0 < n) {i : Intake Q n}
    (hopen : isOpen i.sink) (hready : i.pool.Ready) (pieces : List (List UInt8))
    (hbreaks : ¬ BreaksField pieces.flatten) :
    ∃ j k total tail, i.ingestPieces [] pieces = (j, .ok (total, tail)) ∧
      i.ingest pieces.flatten = (k, .ok total) ∧ pieces.flatten.drop total = tail ∧
      delivered held j.sink = delivered held k.sink ∧ j.tally = k.tally := by
  have hnil : lines i.talkers [] = ([], []) := lines_of_none (line?_of_nil rfl)
  obtain ⟨j, total, hpieces, hsize, hdelivered, htally⟩ :=
    ingestPieces_lines keeps endless hn pieces hopen hready hnil (by simpa using hbreaks)
  obtain ⟨k, taken, hingest, htakes, hlength, hdrop, -⟩ :=
    ingest_lines keeps endless hn hopen hready pieces.flatten
  simp only [List.nil_append] at hpieces hsize hdelivered htally
  obtain rfl : taken = total := by omega
  refine ⟨j, _, taken, _, hpieces, hingest, hdrop, ?_, ?_⟩
  · rw [hdelivered]
    exact htakes.delivered.symm
  · rw [htally, htakes.tally]

/-- A line that is skipped and one that is not, cut within the checksum, before the line feed, and
within the line. -/
theorem ingestPieces_four :
    let i : Intake (Ledger (Buffer Sentence 1)) 1 := ⟨.any, .empty none, ⟨[]⟩, .zero⟩
    let pieces := ["AIVDM,1,1,,A,w0h,2*0", "B\r", "\n!garb", "age\nAIVDM,1"].map Ascii.ofString
    ¬ BreaksField pieces.flatten ∧
      ∃ j k total tail, i.ingestPieces [] pieces = (j, .ok (total, tail)) ∧
        i.ingest pieces.flatten = (k, .ok total) ∧ pieces.flatten.drop total = tail ∧
        delivered Ledger.entries j.sink = delivered Ledger.entries k.sink ∧ j.tally = k.tally := by
  intro i pieces
  have hbreaks : ¬ BreaksField pieces.flatten := by
    unfold BreaksField
    decide +kernel
  exact ⟨hbreaks, ingestPieces_eq_ingest Ledger.keeps (fun _ => rfl) (by decide) trivial
    Pool.ready_empty pieces hbreaks⟩

end Ais.Intake
