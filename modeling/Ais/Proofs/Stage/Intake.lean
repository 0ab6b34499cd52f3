import Ais.Proofs.Batch
import Ais.Proofs.Queue.Ends
import Ais.Proofs.Stage.Lines
import Ais.Proofs.Tally

/-!
# Intake — batches of the lines of a stream

What an intake does with bytes, told by the lines it reads: their sentences go to the sink in order,
packed in batches, and each line is counted.

* `fill_reads`: one batch takes lines until it is full or no further line has its end.
* `batches_cases`: so do all of them, until the sink is full or the pool has no batch to lend.
* `batches_takes`, `ingest_takes`: a pool without a limit always has one.
-/

namespace Ais

/-- A line is counted as what it is. -/
def Tally.addLine (t : Tally) : Intake.Line → Tally
  | some _ => t.addSentence
  | none   => t.addMalformed

def Tally.addLines (t : Tally) (ls : List Intake.Line) : Tally := ls.foldl addLine t

theorem Tally.addLines_append (t : Tally) (ls more : List Intake.Line) :
    t.addLines (ls ++ more) = (t.addLines ls).addLines more := List.foldl_append

/-- Counting lines is adding what they count for. -/
theorem Tally.addLines_eq (t : Tally) (ls : List Intake.Line) :
    t.addLines ls = t + addLines 0 ls := by
  have hline : ∀ (t : Tally) (line : Intake.Line), t.addLine line = t + addLine 0 line :=
    fun t line => by
      cases line with
      | none => exact t.addMalformed_eq
      | some _ => exact t.addSentence_eq
  induction ls generalizing t with
  | nil => exact (add_zero t).symm
  | cons line ls ih =>
      have hcons : ∀ t : Tally, t.addLines (line :: ls) = (t.addLine line).addLines ls := fun _ => rfl
      rw [hcons, hcons, ih, ih (addLine 0 line), hline, add_assoc]

namespace Intake

/-- The sentences among the lines. -/
def sentences (ls : List Line) : List Sentence := ls.filterMap id

@[simp] theorem sentences_nil : sentences [] = [] := rfl

@[simp] theorem sentences_append (ls more : List Line) :
    sentences (ls ++ more) = sentences ls ++ sentences more := List.filterMap_append

/-- Each sentence is counted once. -/
theorem kept_addLines (t : Tally) (ls : List Line) :
    (t.addLines ls).kept = t.kept + .ofSentences (sentences ls).length := by
  induction ls generalizing t with
  | nil => exact (add_zero t.kept).symm
  | cons line ls ih =>
      refine (ih (t.addLine line)).trans ?_
      cases line with
      | none => rfl
      | some s =>
          have hcons : sentences (some s :: ls) = [s] ++ sentences ls := rfl
          rw [hcons, List.length_append, Tally.ofSentences_add, ← add_assoc]
          exact congrArg (· + _) ((congrArg Tally.kept t.addSentence_eq).trans (t.kept_add _))

/-- Every line is counted as what it is. -/
theorem counts_addLines (t : Tally) (ls : List Line) :
    (t.addLines ls).sentences = t.sentences + .ofNat (sentences ls).length ∧
      (t.addLines ls).malformed = t.malformed + .ofNat (ls.countP (·.isNone)) := by
  induction ls generalizing t with
  | nil => exact ⟨(UInt64.add_zero _).symm, (UInt64.add_zero _).symm⟩
  | cons line ls ih =>
      obtain ⟨hsentences, hmalformed⟩ := ih (t.addLine line)
      cases line with
      | none =>
          refine ⟨hsentences, hmalformed.trans ?_⟩
          rw [List.countP_cons_of_pos rfl, Nat.add_comm, UInt64.ofNat_add, ← UInt64.add_assoc]
          rfl
      | some s =>
          refine ⟨hsentences.trans ?_, hmalformed.trans ?_⟩
          · have hcons : sentences (some s :: ls) = [s] ++ sentences ls := rfl
            rw [hcons, List.length_append, UInt64.ofNat_add, ← UInt64.add_assoc]
            rfl
          · rw [List.countP_cons_of_neg (by simp)]
            rfl

/-- Lines are counted among what is counted on the way in. -/
theorem intake_addLines (t : Tally) (ls : List Line) :
    (t.addLines ls).intake = t.intake.addLines ls := by
  induction ls generalizing t with
  | nil => rfl
  | cons line ls ih =>
      cases line with
      | none => exact ih t.addMalformed
      | some _ => exact ih t.addSentence

variable {n : Nat}

/-- What the records of a batch show. -/
def shownIn (b : Batch Sentence n) : List (Header × List UInt8) := b.items.map (·.shown)

/-- A record is read from a line into the next slot, and the slot is given back if it is none. -/
theorem shownIn_of_claim? {batch claimed : Batch Sentence n} {old : Sentence}
    (h : batch.claim? = some (old, claimed)) (s : Sentence) :
    shownIn (claimed.setBack s) = shownIn batch ++ [s.shown] ∧
      shownIn (claimed.setBack s).dropBack = shownIn batch := by
  obtain ⟨hset, hdrop⟩ := Batch.items_of_claim? h s
  simp [shownIn, hset, hdrop]

/-- Where no line begins, the batch is left as it is. -/
theorem fill_of_nil (talkers : Talkers) (batch : Batch Sentence n) (tally : Tally)
    {bytes : List UInt8} (h : skipLineEnds bytes = []) :
    fill talkers batch tally bytes = ⟨batch, tally, [], true⟩ := by
  rw [fill]
  split
  · rfl
  · rename_i hskip
    rw [h] at hskip
    cases hskip

/-- A full batch is left as it is. -/
theorem fill_of_full (talkers : Talkers) {batch : Batch Sentence n} (tally : Tally)
    {bytes rest : List UInt8} {b : UInt8} (h : skipLineEnds bytes = b :: rest)
    (hclaim : batch.claim? = none) :
    fill talkers batch tally bytes = ⟨batch, tally, b :: rest, false⟩ := by
  rw [fill]
  split
  · rename_i hskip
    rw [h] at hskip
    cases hskip
  · rename_i hskip
    rw [h] at hskip
    cases hskip
    simp only [hclaim]

/-- A line that is a sentence takes the next slot. -/
theorem fill_of_parse (talkers : Talkers) {batch claimed : Batch Sentence n} (tally : Tally)
    {bytes rest : List UInt8} {b : UInt8} {old s : Sentence} {size : Nat}
    (h : skipLineEnds bytes = b :: rest) (hclaim : batch.claim? = some (old, claimed))
    (hparse : old.parseSize talkers (Sentence.body (b :: rest)) = (s, size)) (hsize : 0 < size) :
    fill talkers batch tally bytes = fill talkers (claimed.setBack s) tally.addSentence
      ((Sentence.body (b :: rest)).drop size) := by
  rw [fill]
  split
  · rename_i hskip
    rw [h] at hskip
    cases hskip
  · rename_i hskip
    rw [h] at hskip
    cases hskip
    simp only [hclaim, hparse, if_pos hsize]

/-- A line that is no sentence gives its slot back, and is skipped if its line feed is there. -/
theorem fill_of_refused (talkers : Talkers) {batch claimed : Batch Sentence n} (tally : Tally)
    {bytes rest : List UInt8} {b : UInt8} {old s : Sentence} {size : Nat}
    (h : skipLineEnds bytes = b :: rest) (hclaim : batch.claim? = some (old, claimed))
    (hparse : old.parseSize talkers (Sentence.body (b :: rest)) = (s, size)) (hsize : ¬0 < size) :
    fill talkers batch tally bytes =
      match afterLine? (Sentence.body (b :: rest)) with
      | some next => fill talkers (claimed.setBack s).dropBack tally.addMalformed next
      | none      => ⟨(claimed.setBack s).dropBack, tally, b :: rest, true⟩ := by
  rw [fill]
  split
  · rename_i hskip
    rw [h] at hskip
    cases hskip
  · rename_i hskip
    rw [h] at hskip
    cases hskip
    simp only [hclaim, hparse, if_neg hsize]
    split <;> rename_i hafter <;> rw [hafter]

/-- **One batch takes lines** until it is full or no further line has its end. -/
theorem fill_reads (talkers : Talkers) (batch : Batch Sentence n) (tally : Tally)
    (bytes : List UInt8) :
    let filled := fill talkers batch tally bytes
    ∃ ls, Reads talkers bytes ls filled.rest ∧
      shownIn filled.batch = shownIn batch ++ (sentences ls).map (·.shown) ∧
      filled.tally = tally.addLines ls ∧
      (filled.done = true → lines talkers filled.rest = ([], filled.rest)) ∧
      (filled.done = false → filled.batch.isFull = true) := by
  fun_induction fill talkers batch tally bytes with
  -- the bytes are used up
  | case1 batch tally bytes hskip =>
      have hnil : lines talkers [] = ([], []) := lines_of_none (line?_of_nil rfl)
      exact ⟨[], hskip ▸ .skip bytes, by simp, rfl, fun _ => hnil, by simp⟩
  -- the batch is full
  | case2 batch tally bytes b r hskip hclaim =>
      refine ⟨[], hskip ▸ .skip bytes, by simp, rfl, by simp, fun _ => ?_⟩
      by_contra hfull
      obtain ⟨old, claimed, hsome⟩ := Batch.claim?_of_not_isFull (Bool.eq_false_iff.mpr hfull)
      rw [hclaim] at hsome
      cases hsome
  -- the line is a sentence
  | case3 batch tally bytes b r hskip body old claimed hclaim s size hparse written hsize ih =>
      rcases hfresh : Sentence.empty.parseSize talkers (Sentence.body (b :: r)) with ⟨t, size'⟩
      obtain ⟨hsame, hshown⟩ := Sentence.parseSize_congr hparse hfresh
      obtain rfl : size = size' := hsame
      obtain ⟨ls, hreads, hbatch, htally, hdone⟩ := ih
      have hline := line?_of_parse hskip hfresh
      rw [if_pos hsize] at hline
      refine ⟨some t :: ls, .line hline hreads, ?_, htally, hdone⟩
      rw [hbatch, (shownIn_of_claim? hclaim s).1, hshown hsize, List.append_assoc]
      rfl
  -- the line is skipped
  | case4 batch tally bytes b r hskip body old claimed hclaim s size hparse written hsize next
      hafter ih =>
      rcases hfresh : Sentence.empty.parseSize talkers (Sentence.body (b :: r)) with ⟨t, size'⟩
      obtain rfl : size = size' := (Sentence.parseSize_congr hparse hfresh).1
      obtain ⟨ls, hreads, hbatch, htally, hdone⟩ := ih
      have hline := line?_of_parse hskip hfresh
      rw [if_neg hsize, show afterLine? (Sentence.body (b :: r)) = some next from hafter] at hline
      refine ⟨none :: ls, .line hline hreads, ?_, htally, hdone⟩
      rw [hbatch, (shownIn_of_claim? hclaim s).2]
      rfl
  -- the line has no end yet
  | case5 batch tally bytes b r hskip body old claimed hclaim s size hparse written hsize hafter =>
      rcases hfresh : Sentence.empty.parseSize talkers (Sentence.body (b :: r)) with ⟨t, size'⟩
      obtain rfl : size = size' := (Sentence.parseSize_congr hparse hfresh).1
      have hself := skipLineEnds_self bytes
      rw [hskip] at hself
      have hline := line?_of_parse hself hfresh
      rw [if_neg hsize, show afterLine? (Sentence.body (b :: r)) = none from hafter] at hline
      refine ⟨[], hskip ▸ .skip bytes, ?_, rfl, fun _ => ?_, by simp⟩
      · rw [(shownIn_of_claim? hclaim s).2, sentences_nil, List.map_nil, List.append_nil]
      · rw [lines_of_none hline, hself]

/-- A full batch has taken lines, and the bytes are fewer. -/
theorem length_fill_rest (hn : 0 < n) (talkers : Talkers) {batch : Batch Sentence n}
    (blank : batch.items = []) (tally : Tally) (bytes : List UInt8)
    (more : (fill talkers batch tally bytes).done = false) :
    (fill talkers batch tally bytes).rest.length < bytes.length := by
  obtain ⟨ls, hreads, hbatch, -, -, hfull⟩ := fill_reads talkers batch tally bytes
  refine hreads.length_lt ?_
  rintro rfl
  -- the batch would be empty and full
  have hsize := congrArg List.length hbatch
  rw [shownIn, shownIn, blank, List.length_map, Batch.length_items,
    Batch.isFull_iff.mp (hfull more)] at hsize
  exact absurd hsize (Nat.ne_of_gt hn)

/-- A batch of sentences that were read is filled up with sentences that were read. -/
theorem fill_hasForm (talkers : Talkers) {batch : Batch Sentence n} (tally : Tally)
    (bytes : List UInt8) (h : ∀ s ∈ batch.items, s.HasForm) :
    ∀ s ∈ (fill talkers batch tally bytes).batch.items, s.HasForm := by
  fun_induction fill talkers batch tally bytes with
  | case1 | case2 => exact h
  | case3 batch tally bytes b r hskip body old claimed hclaim s size hparse written hsize ih =>
      refine ih fun t ht => ?_
      rw [(Batch.items_of_claim? hclaim s).1, List.mem_append, List.mem_singleton] at ht
      rcases ht with ht | rfl
      · exact h t ht
      · exact (Sentence.isRead_parseSize hparse hsize).hasForm
  | case4 batch tally bytes b r hskip body old claimed hclaim s size hparse written hsize next hafter
      ih => exact ih fun t ht => h t ((Batch.items_of_claim? hclaim s).2 ▸ ht)
  | case5 batch tally bytes b r hskip body old claimed hclaim s size hparse written hsize hafter =>
      exact fun t ht => h t ((Batch.items_of_claim? hclaim s).2 ▸ ht)

/-! ### Batch after batch -/

variable {Q : Type} {isOpen : Q → Prop} {held : Q → List (Buffer Sentence n)}

/-- What the sentences in a queue of batches show. -/
def delivered (held : Q → List (Buffer Sentence n)) (q : Q) : List (Header × List UInt8) :=
  (Buffer.records (held q)).map (·.shown)

/-- From `i` to `j` the intake takes the lines `ls` off the bytes and leaves `rest`. -/
structure Takes (isOpen : Q → Prop) (held : Q → List (Buffer Sentence n)) (i : Intake Q n)
    (bytes : List UInt8) (ls : List Line) (j : Intake Q n) (rest : List UInt8) : Prop where
  reads     : Reads i.talkers bytes ls rest
  talkers   : j.talkers = i.talkers
  isOpen    : isOpen j.sink
  ready     : j.pool.Ready
  delivered : delivered held j.sink = delivered held i.sink ++ (sentences ls).map (·.shown)
  tally     : j.tally = i.tally.addLines ls
  /-- Nothing is sent where there is no sentence. -/
  sink      : sentences ls = [] → j.sink = i.sink

/-- From `i` to `j` the intake delivers the lines `ls` of the bytes and leaves `rest`.  The pool may
have a limit. -/
structure Delivers (isOpen : Q → Prop) (held : Q → List (Buffer Sentence n)) (i : Intake Q n)
    (bytes : List UInt8) (ls : List Line) (j : Intake Q n) (rest : List UInt8) : Prop where
  reads   : Reads i.talkers bytes ls rest
  talkers : j.talkers = i.talkers
  isOpen  : isOpen j.sink
  clean   : j.pool.Clean
  limit   : j.pool.limit = i.pool.limit
  records : ∃ out, Buffer.records (held j.sink) = Buffer.records (held i.sink) ++ out ∧
    out.map (·.shown) = (sentences ls).map (·.shown)
  tally   : j.tally = i.tally.addLines ls
  /-- Nothing is sent where there is no sentence. -/
  sink    : sentences ls = [] → j.sink = i.sink

namespace Delivers

variable {i j k : Intake Q n} {bytes middle rest : List UInt8} {ls more : List Line}

theorem refl (hopen : isOpen i.sink) (hclean : i.pool.Clean) (bytes : List UInt8) :
    Delivers isOpen held i bytes [] i bytes :=
  ⟨.here bytes, rfl, hopen, hclean, rfl, ⟨[], (List.append_nil _).symm, rfl⟩, rfl, fun _ => rfl⟩

theorem trans (h : Delivers isOpen held i bytes ls j middle)
    (h' : Delivers isOpen held j middle more k rest) :
    Delivers isOpen held i bytes (ls ++ more) k rest where
  reads   := h.reads.trans (h.talkers ▸ h'.reads)
  talkers := h'.talkers.trans h.talkers
  isOpen  := h'.isOpen
  clean   := h'.clean
  limit   := h'.limit.trans h.limit
  records := by
    obtain ⟨out, hrecords, hshown⟩ := h.records
    obtain ⟨out', hrecords', hshown'⟩ := h'.records
    refine ⟨out ++ out', by rw [hrecords', hrecords, List.append_assoc], ?_⟩
    rw [List.map_append, hshown, hshown', sentences_append, List.map_append]
  tally   := by rw [h'.tally, h.tally, Tally.addLines_append]
  sink    := fun hnone => by
    rw [sentences_append, List.append_eq_nil_iff] at hnone
    rw [h'.sink hnone.2, h.sink hnone.1]

/-- Lines are taken where the pool has no limit. -/
theorem takes (h : Delivers isOpen held i bytes ls j rest) (hready : i.pool.Ready) :
    Takes isOpen held i bytes ls j rest where
  reads     := h.reads
  talkers   := h.talkers
  isOpen    := h.isOpen
  ready     := ⟨h.limit.trans hready.limit, h.clean⟩
  delivered := by
    obtain ⟨out, hrecords, hshown⟩ := h.records
    rw [Intake.delivered, hrecords, List.map_append, hshown]
    rfl
  tally     := h.tally
  sink      := h.sink

end Delivers

variable [Sink Q (Buffer Sentence n)]

/-- **One round of the loop** fills the batch that the pool lends, and goes on where it was full. -/
theorem batches_of_acquire (keeps : Sink.Keeps isOpen held) (hn : 0 < n) {i : Intake Q n}
    (hopen : isOpen i.sink) (room : Sink.isFull i.sink = false) {bytes : List UInt8}
    (hne : bytes ≠ []) (hclean : i.pool.Clean) {b : Buffer Sentence n} {pool : Pool Sentence n}
    (hacquire : i.pool.acquire = .ok (b, pool)) :
    ∃ ls j rest, Delivers isOpen held i bytes ls j rest ∧ (sentences ls).length ≤ n ∧
      (sentences ls ≠ [] → j.pool = pool) ∧
      (i.batches bytes = (j, .ok rest) ∧ lines i.talkers rest = ([], rest) ∨
        i.batches bytes = j.batches rest ∧ rest.length < bytes.length ∧
          (sentences ls).length = n) := by
  obtain ⟨hitems, hpool⟩ := hclean.acquire hacquire
  have hlimit := Pool.limit_of_acquire hacquire
  obtain ⟨ls, hreads, hbatch, htally, hdone, hfull⟩ := fill_reads i.talkers b.batch i.tally bytes
  have hisEmpty : bytes.isEmpty = false := by simpa using hne
  rw [batches, if_neg (by simp [hisEmpty]), Stage.ensureOpen_ok keeps hopen]
  simp only [room, hacquire, Bool.false_eq_true, if_false]
  have hblank : shownIn b.batch = [] := by rw [shownIn, hitems, List.map_nil]
  rw [hblank, List.nil_append] at hbatch
  have hshorter := length_fill_rest hn i.talkers hitems i.tally bytes
  generalize fill i.talkers b.batch i.tally bytes = filled
    at hreads hbatch htally hdone hfull hshorter ⊢
  have hsize : (sentences ls).length = filled.batch.size := by
    have hlength := congrArg List.length hbatch
    rw [shownIn, List.length_map, List.length_map, Batch.length_items] at hlength
    exact hlength.symm
  have hle : (sentences ls).length ≤ n := hsize ▸ filled.batch.size_le
  have hon : filled.done = false →
      filled.rest.length < bytes.length ∧ (sentences ls).length = n := fun h =>
    ⟨hshorter h, hsize.trans (Batch.isFull_iff.mp (hfull h))⟩
  cases hempty : filled.batch.isEmpty with
  | true =>
      have hnone : sentences ls = [] := by
        rw [← List.length_eq_zero_iff, hsize, ← Batch.length_items, Batch.isEmpty_iff.mp hempty,
          List.length_nil]
      refine ⟨ls, ⟨i.talkers, pool.release { b with batch := filled.batch }, i.sink, filled.tally⟩,
        filled.rest, ⟨hreads, rfl, hopen, hpool.release _, hlimit, ⟨[], by simp, by simp [hnone]⟩,
          htally, fun _ => rfl⟩, hle, fun hsome => absurd hnone hsome, ?_⟩
      cases hd : filled.done with
      | true => exact .inl ⟨by simp, hdone hd⟩
      | false => exact .inr ⟨by simp [(hon hd).1], hon hd⟩
  | false =>
      have hsome : sentences ls ≠ [] := fun hnone => by
        rw [hnone, List.map_nil, shownIn, List.map_eq_nil_iff] at hbatch
        rw [Batch.isEmpty_iff.mpr hbatch] at hempty
        cases hempty
      obtain ⟨q, hsend, hq, hheld⟩ :=
        Stage.handOver_ok keeps hopen room pool { b with batch := filled.batch }
      refine ⟨ls, ⟨i.talkers, pool, q, filled.tally⟩, filled.rest, ⟨hreads, rfl, hq, hpool, hlimit,
        ⟨filled.batch.items, by simp [hheld], hbatch⟩, htally, fun hnone => absurd hnone hsome⟩, hle,
        fun _ => rfl, ?_⟩
      cases hd : filled.done with
      | true => exact .inl ⟨by simp [hsend], hdone hd⟩
      | false => exact .inr ⟨by simp [hsend, (hon hd).1], hon hd⟩

/-- Where the pool has nothing to lend, nothing is done. -/
theorem batches_of_dry (keeps : Sink.Keeps isOpen held) {i : Intake Q n} (hopen : isOpen i.sink)
    (room : Sink.isFull i.sink = false) {bytes : List UInt8} (hne : bytes ≠ []) {f : Fault}
    (hacquire : i.pool.acquire = .error f) : i.batches bytes = (i, .error (.fault f)) := by
  have hisEmpty : bytes.isEmpty = false := by simpa using hne
  rw [batches, if_neg (by simp [hisEmpty]), Stage.ensureOpen_ok keeps hopen]
  simp only [room, hacquire, Bool.false_eq_true, if_false]

/-- **All rounds together** deliver lines until the sink is full or no further line has its end, or
until the pool is dry: then so many batches have been delivered whole. -/
theorem batches_cases (keeps : Sink.Keeps isOpen held) (hn : 0 < n) {i : Intake Q n}
    (hopen : isOpen i.sink) (hclean : i.pool.Clean) (bytes : List UInt8) :
    ∃ ls j rest, Delivers isOpen held i bytes ls j rest ∧
      (i.batches bytes = (j, .ok rest) ∧
          (Sink.isFull j.sink = false → lines i.talkers rest = ([], rest)) ∨
        i.batches bytes = (j, .error (.fault (.poolExhausted j.pool.allocated))) ∧
          j.pool.spare = [] ∧ j.pool.isExhausted = true ∧ rest ≠ [] ∧
          ∃ rounds, (sentences ls).length = n * rounds ∧ (rounds = 0 → j = i ∧ rest = bytes)) := by
  induction hlength : bytes.length using Nat.strongRecOn generalizing i bytes with
  | ind m ih =>
      by_cases hne : bytes = []
      · have hnil : lines i.talkers [] = ([], []) := lines_of_none (line?_of_nil rfl)
        exact ⟨[], i, bytes, .refl hopen hclean bytes,
          .inl ⟨by rw [batches, hne]; rfl, fun _ => hne ▸ hnil⟩⟩
      cases room : Sink.isFull i.sink with
      | true =>
          refine ⟨[], i, bytes, .refl hopen hclean bytes, .inl ⟨?_, fun h => ?_⟩⟩
          · have hisEmpty : bytes.isEmpty = false := by simpa using hne
            rw [batches, if_neg (by simp [hisEmpty]), Stage.ensureOpen_ok keeps hopen]
            simp only [room, if_true]
          · rw [room] at h
            cases h
      | false =>
          cases hacquire : i.pool.acquire with
          | error f =>
              obtain ⟨hspare, hexhausted, rfl⟩ := Pool.acquire_error hacquire
              exact ⟨[], i, bytes, .refl hopen hclean bytes,
                .inr ⟨batches_of_dry keeps hopen room hne hacquire, hspare, hexhausted, hne, 0, rfl,
                  fun _ => ⟨rfl, rfl⟩⟩⟩
          | ok lent =>
              obtain ⟨b, pool⟩ := lent
              obtain ⟨ls, j, rest, hdelivers, -, -, ⟨hbatches, hstop⟩ | ⟨hbatches, hshorter, hfull⟩⟩ :=
                batches_of_acquire keeps hn hopen room hne hclean hacquire
              · exact ⟨ls, j, rest, hdelivers, .inl ⟨hbatches, fun _ => hstop⟩⟩
              · obtain ⟨more, k, rest', hdelivers', hcases⟩ :=
                  ih rest.length (hlength ▸ hshorter) hdelivers.isOpen hdelivers.clean rest rfl
                refine ⟨ls ++ more, k, rest', hdelivers.trans hdelivers', ?_⟩
                rw [hbatches]
                rcases hcases with
                  ⟨hok, hstop⟩ | ⟨herror, hspare, hexhausted, hrest, rounds, hrounds, -⟩
                · exact .inl ⟨hok, hdelivers.talkers ▸ hstop⟩
                · refine .inr ⟨herror, hspare, hexhausted, hrest, rounds + 1, ?_, fun h => ?_⟩
                  · rw [sentences_append, List.length_append, hfull, hrounds, Nat.mul_succ,
                      Nat.add_comm]
                  · cases h

/-- **All batches** take lines until the sink is full or no further line has its end. -/
theorem batches_takes (keeps : Sink.Keeps isOpen held) (hn : 0 < n) {i : Intake Q n}
    (hopen : isOpen i.sink) (hready : i.pool.Ready) (bytes : List UInt8) :
    ∃ ls j rest, i.batches bytes = (j, .ok rest) ∧ Takes isOpen held i bytes ls j rest ∧
      (Sink.isFull j.sink = false → lines i.talkers rest = ([], rest)) := by
  obtain ⟨ls, j, rest, hdelivers, ⟨hok, hstop⟩ | ⟨-, -, hexhausted, -⟩⟩ :=
    batches_cases keeps hn hopen hready.clean bytes
  · exact ⟨ls, j, rest, hok, hdelivers.takes hready, hstop⟩
  · rw [Pool.isExhausted, hdelivers.limit, hready.limit] at hexhausted
    cases hexhausted

/-- Taking bytes in says how many bytes the lines were. -/
theorem ingest_takes (keeps : Sink.Keeps isOpen held) (hn : 0 < n) {i : Intake Q n}
    (hopen : isOpen i.sink) (hready : i.pool.Ready) (bytes : List UInt8) :
    ∃ ls j rest taken, i.ingest bytes = ({ j with tally := j.tally.addBytes taken }, .ok taken) ∧
      Takes isOpen held i bytes ls j rest ∧ taken + rest.length = bytes.length ∧
      bytes.drop taken = rest ∧ (Sink.isFull j.sink = false → lines i.talkers rest = ([], rest)) := by
  obtain ⟨ls, j, rest, hbatches, htakes, hstop⟩ := batches_takes keeps hn hopen hready bytes
  have hsuffix := htakes.reads.suffix
  refine ⟨ls, j, rest, bytes.length - rest.length, by rw [ingest, hbatches], htakes, ?_,
    (List.suffix_iff_eq_drop.mp hsuffix).symm, hstop⟩
  have := hsuffix.length_le
  omega

/-- Whoever is told how many bytes were taken has got the lines of them. -/
theorem ingest_delivers (keeps : Sink.Keeps isOpen held) (hn : 0 < n) {i k : Intake Q n}
    (hopen : isOpen i.sink) (hclean : i.pool.Clean) {bytes : List UInt8} {taken : Nat}
    (h : i.ingest bytes = (k, .ok taken)) :
    ∃ ls j rest, Delivers isOpen held i bytes ls j rest ∧
      k = { j with tally := j.tally.addBytes taken } := by
  obtain ⟨ls, j, rest, hdelivers, ⟨hok, -⟩ | ⟨herror, -⟩⟩ :=
    batches_cases keeps hn hopen hclean bytes
  · rw [ingest, hok] at h
    cases h
    exact ⟨ls, j, rest, hdelivers, rfl⟩
  · rw [ingest, herror] at h
    cases h

/-- Where nothing is taken although the sink has room, no line has its end. -/
theorem lines_of_none_taken (keeps : Sink.Keeps isOpen held) (hn : 0 < n) {i : Intake Q n}
    (hopen : isOpen i.sink) (hclean : i.pool.Clean) (room : Sink.isFull i.sink = false)
    {bytes : List UInt8} (h : (i.ingest bytes).2 = .ok 0) : lines i.talkers bytes = ([], bytes) := by
  obtain ⟨ls, j, rest, hdelivers, ⟨hok, hstop⟩ | ⟨herror, -⟩⟩ :=
    batches_cases keeps hn hopen hclean bytes
  · rw [ingest, hok] at h
    have hnone : bytes.length - rest.length = 0 := Except.ok.inj h
    obtain rfl : rest = bytes := hdelivers.reads.suffix.eq_of_length_le (by omega)
    have hls : ls = [] := by
      by_contra hne
      exact absurd (hdelivers.reads.length_lt hne) (Nat.lt_irrefl _)
    have hsink : j.sink = i.sink := hdelivers.sink (by rw [hls, sentences_nil])
    exact hstop (hsink ▸ room)
  · rw [ingest, herror] at h
    cases h

end Intake

end Ais
