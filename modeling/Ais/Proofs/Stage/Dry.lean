import Ais.Proofs.Stage.Intake

/-!
# Intake — when the pool runs dry

An intake asks its pool for one batch a round, and says how far it has come only at the end.  If the
pool has no batch to lend it breaks off: what the rounds before have filled is in the sink, and the
lines are counted, but how many bytes they were is neither said nor counted
(`ingest_poolExhausted`).  Only a pool that is dry from the start leaves everything as it was.

Whoever offers the same bytes again therefore gets those lines again.  One sentence more than a
batch holds is enough (`ingest_reports`).
-/

namespace Ais.Intake

variable {Q : Type} {n : Nat} [Sink Q (Buffer Sentence n)] {isOpen : Q → Prop}
  {held : Q → List (Buffer Sentence n)}

/-- **An intake whose pool runs dry has delivered the batches before**: so many whole ones, whose
lines are counted.  It is as it was only where there are none.  The lines of the same bytes begin
with those delivered, and the lines of the rest are the others. -/
theorem ingest_poolExhausted (keeps : Sink.Keeps isOpen held) (hn : 0 < n) {i j : Intake Q n}
    (hopen : isOpen i.sink) (hclean : i.pool.Clean) {bytes : List UInt8} {k : Nat}
    (h : i.ingest bytes = (j, .error (.fault (.poolExhausted k)))) :
    ∃ ls rest rounds, Delivers isOpen held i bytes ls j rest ∧ rest ≠ [] ∧
      (lines i.talkers bytes).1 = ls ++ (lines i.talkers rest).1 ∧
      (sentences ls).length = n * rounds ∧ (rounds = 0 → j = i ∧ rest = bytes) ∧
      j.pool.spare = [] ∧ j.pool.isExhausted = true ∧ k = j.pool.allocated := by
  obtain ⟨ls, j', rest, hdelivers, ⟨hok, -⟩ |
    ⟨herror, hspare, hexhausted, hrest, rounds, hwhole, hnone⟩⟩ :=
      batches_cases keeps hn hopen hclean bytes
  · rw [ingest, hok] at h
    cases h
  · rw [ingest, herror] at h
    cases h
    have hlines := congrArg Prod.fst hdelivers.reads.lines_eq
    exact ⟨ls, rest, rounds, hdelivers, hrest, hlines, hwhole, hnone, hspare, hexhausted, rfl⟩

/-! ### One sentence too many -/

/-- A sentence and its line feed. -/
def report : List UInt8 := Ascii.ofString "AIVDM,1,1,,A,w0h,2*0B\n"

/-- The same line so many times. -/
def reports (k : Nat) : List UInt8 := (List.replicate k report).flatten

theorem line?_report (more : List UInt8) :
    ∃ s, line? .any (report ++ more) = some (some s, Ascii.lineFeed :: more) := by
  rcases hparse : Sentence.empty.parseSize .any report with ⟨s, size⟩
  have hsize : size = 21 := by
    have : (Sentence.empty.parseSize .any report).2 = 21 := by decide +kernel
    rwa [hparse] at this
  subst hsize
  have hskip : skipLineEnds (report ++ more) = report ++ more := rfl
  have hread := (Sentence.parseSize_append hparse (by decide) more).1
  exact ⟨s, by rw [line?_of_parse hskip hread]; rfl⟩

theorem sentences_reports (k : Nat) : (sentences (lines .any (reports k)).1).length = k := by
  induction k with
  | zero =>
      rw [show reports 0 = [] from rfl, lines_of_none (line?_of_nil rfl)]
      rfl
  | succ k ih =>
      obtain ⟨s, hline⟩ := line?_report (reports k)
      have hskip : skipLineEnds (Ascii.lineFeed :: reports k) = skipLineEnds (reports k) := rfl
      rw [show reports (k + 1) = report ++ reports k from rfl, lines_of_some hline, lines_congr hskip]
      exact congrArg Nat.succ ih

/-- A pool that may make one batch, and a queue without bounds behind it. -/
def oneBatch (n : Nat) : Intake (Ledger (Buffer Sentence n)) n := ⟨.any, .empty (some 1), ⟨[]⟩, .zero⟩

/-- Of one sentence more than a batch holds all but the last are delivered and counted, and then
nothing is said. -/
theorem ingest_reports {n : Nat} (hn : 0 < n) :
    ∃ j, (oneBatch n).ingest (reports (n + 1)) = (j, .error (.fault (.poolExhausted 1))) ∧
      (Buffer.records j.sink.entries).length = n ∧ j.tally.sentences = UInt64.ofNat n := by
  have hacquire : (oneBatch n).pool.acquire = .ok (⟨0, .empty _ _⟩, ⟨[], 1, some 1⟩) := rfl
  have hne : reports (n + 1) ≠ [] := List.cons_ne_nil _ _
  obtain ⟨ls, j, rest, hdelivers, hle, hpool, hround⟩ :=
    batches_of_acquire Ledger.keeps hn (i := oneBatch n) trivial rfl hne
      (fun _ h => absurd h List.not_mem_nil) hacquire
  have hall : (sentences ls).length + (sentences (lines .any rest).1).length = n + 1 := by
    have hlines := congrArg Prod.fst hdelivers.reads.lines_eq
    rw [← sentences_reports (n + 1), show (lines .any (reports (n + 1))).1 = _ from hlines,
      sentences_append, List.length_append]
    rfl
  rcases hround with ⟨-, hstop⟩ | ⟨hbatches, -, hfull⟩
  · -- one batch does not hold them all
    have hstop : lines .any rest = ([], rest) := hstop
    rw [hstop, sentences_nil, List.length_nil] at hall
    omega
  · have hrest : rest ≠ [] := fun hnil => by
      rw [hnil, lines_of_none (line?_of_nil rfl), hfull, sentences_nil, List.length_nil] at hall
      omega
    have hdry : j.pool.acquire = .error (.poolExhausted 1) := by
      rw [hpool (List.ne_nil_of_length_pos (hfull ▸ hn))]
      rfl
    refine ⟨j, ?_, ?_, ?_⟩
    · rw [ingest, hbatches, batches_of_dry Ledger.keeps trivial rfl hrest hdry]
    · obtain ⟨out, hrecords, hshown⟩ := hdelivers.records
      have := congrArg List.length hshown
      rw [List.length_map, List.length_map, hfull] at this
      rw [hrecords, List.length_append, this]
      exact Nat.zero_add n
    · have hcounted := congrArg Tally.sentences (kept_addLines (oneBatch n).tally ls)
      rw [hfull] at hcounted
      rw [hdelivers.tally]
      exact hcounted.trans (UInt64.zero_add _)

/-- A batch of sentences is delivered although the pool runs dry. -/
theorem ingest_poolExhausted_reports :
    (oneBatch Limits.batchRecords).pool.Clean ∧
      ∃ j, (oneBatch Limits.batchRecords).ingest (reports (Limits.batchRecords + 1)) =
          (j, .error (.fault (.poolExhausted 1))) ∧
        ∃ ls rest rounds, Delivers (fun _ => True) Ledger.entries (oneBatch Limits.batchRecords)
            (reports (Limits.batchRecords + 1)) ls j rest ∧ rest ≠ [] ∧
          (lines .any (reports (Limits.batchRecords + 1))).1 = ls ++ (lines .any rest).1 ∧
          (sentences ls).length = Limits.batchRecords * rounds ∧
          (rounds = 0 → j = oneBatch _ ∧ rest = reports (Limits.batchRecords + 1)) ∧
          j.pool.spare = [] ∧ j.pool.isExhausted = true ∧ 1 = j.pool.allocated := by
  have hclean : (oneBatch Limits.batchRecords).pool.Clean := fun _ h => absurd h List.not_mem_nil
  obtain ⟨j, h, -⟩ := ingest_reports (n := Limits.batchRecords) (by decide)
  exact ⟨hclean, j, h, ingest_poolExhausted Ledger.keeps (by decide) trivial hclean h⟩

/-- The sentences of a whole batch are in the sink and counted, although there were none before and
nothing is said. -/
theorem ingest_breaks_off :
    ∃ j, (oneBatch Limits.batchRecords).ingest (reports (Limits.batchRecords + 1)) =
        (j, .error (.fault (.poolExhausted 1))) ∧
      (Buffer.records j.sink.entries).length = 512 ∧ j.tally.sentences = 512 ∧
      (oneBatch Limits.batchRecords).sink.entries = [] ∧
      (oneBatch Limits.batchRecords).tally = .zero := by
  obtain ⟨j, h, hrecords, hsentences⟩ := ingest_reports (n := Limits.batchRecords) (by decide)
  exact ⟨j, h, hrecords, hsentences, rfl, rfl⟩

end Ais.Intake
