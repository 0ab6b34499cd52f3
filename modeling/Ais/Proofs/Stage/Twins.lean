import Ais.Proofs.Pool
import Ais.Proofs.Queue.Twins
import Ais.Proofs.Stage.Intake

/-!
# Stages — two stages side by side

A record is decoded over whatever its slot held before, and a batch is lent again with all that is
in its slots.  To see that none of this shows, a stage is run beside another that is like it but for
what is out of sight: `Buffer.Twin` says that two batches show the same records, `Pool.Twin` that of
two pools as many batches are lent and as many may be, and `Intake.Twin` that two intakes stand
between such pools and related sinks.

* `Pool.Twin.acquire`: twin pools lend empty batches, or both have none.
* `Intake.fill_alike`: a batch is filled with the same whatever lies in its slots.
* `Intake.ingest_alike`: twin intakes take the same bytes, and are twins then.
-/

namespace Ais

variable {α ι : Type} {n : Nat}

/-! ### Batches and pools -/

theorem Batch.size_of_shown {view : α → ι} {b b' : Batch α n}
    (h : b.items.map view = b'.items.map view) : b.size = b'.size := by
  have := congrArg List.length h
  rwa [List.length_map, List.length_map, length_items, length_items] at this

theorem Batch.isFull_of_shown {view : α → ι} {b b' : Batch α n}
    (h : b.items.map view = b'.items.map view) : b.isFull = b'.isFull := by
  rw [Bool.eq_iff_iff, isFull_iff, isFull_iff, size_of_shown h]

theorem Batch.isEmpty_of_shown {view : α → ι} {b b' : Batch α n}
    (h : b.items.map view = b'.items.map view) : b.isEmpty = b'.isEmpty := by
  rw [isEmpty, isEmpty, size_of_shown h]

/-- Where one batch has a slot left, so has one that shows the same. -/
theorem Batch.claim?_of_shown {view : α → ι} {b b' claimed : Batch α n} {old : α}
    (h : b.items.map view = b'.items.map view) (hclaim : b.claim? = some (old, claimed)) :
    ∃ old' claimed', b'.claim? = some (old', claimed') := by
  refine claim?_of_not_isFull (Bool.eq_false_iff.mpr fun hfull => ?_)
  rw [← isFull_of_shown h, ← claim?_eq_none_iff, hclaim] at hfull
  cases hfull

/-- The batches show the same, record by record, and the records are valid. -/
structure Buffer.Twin (view : α → ι) (Valid : α → Prop) (b b' : Buffer α n) : Prop where
  shown : b.batch.items.map view = b'.batch.items.map view
  valid : ∀ a ∈ b.batch.items, Valid a

namespace Buffer.Twin

variable {view : α → ι} {Valid : α → Prop} {b b' : Buffer α n}

theorem of_empty (h : b.batch.items = []) (h' : b'.batch.items = []) :
    Buffer.Twin view Valid b b' :=
  ⟨by rw [h, h'], fun a ha => by rw [h] at ha; cases ha⟩

end Buffer.Twin

namespace Pool

variable {p p' : Pool α n}

/-- A batch that is lent is one more of those lent, and the limit is kept. -/
theorem lent_of_acquire [Inhabited α] {b : Buffer α n} (h : p.acquire = .ok (b, p')) :
    p'.allocated + p.available = p.allocated + p'.available + 1 ∧
      ((∀ most ∈ p.limit, p.allocated ≤ most) → ∀ most ∈ p'.limit, p'.allocated ≤ most) := by
  rcases p.acquire_cases with ⟨c, cs, hspare, hok⟩ | ⟨hspare, hroom, hok⟩ | ⟨-, -, herror⟩
  · cases hok.symm.trans h
    exact ⟨by simp [available, hspare, Nat.add_assoc], id⟩
  · cases hok.symm.trans h
    refine ⟨by simp [available, hspare], fun _ most hmost => ?_⟩
    rw [isExhausted, Option.mem_def.mp hmost, Option.any_some] at hroom
    exact Nat.succ_le_of_lt (by simpa using hroom)
  · cases herror.symm.trans h

/-- As many batches are lent of either pool, as many may be, and the spare ones are empty. -/
structure Twin (p p' : Pool α n) : Prop where
  left   : p.Clean
  right  : p'.Clean
  limit  : p.limit = p'.limit
  lent   : p.allocated + p'.available = p'.allocated + p.available
  within : ∀ most ∈ p.limit, p.allocated ≤ most ∧ p'.allocated ≤ most

namespace Twin

theorem refl (h : p.Clean) (within : ∀ most ∈ p.limit, p.allocated ≤ most) : p.Twin p :=
  ⟨h, h, rfl, rfl, fun most hmost => ⟨within most hmost, within most hmost⟩⟩

theorem symm (h : p.Twin p') : p'.Twin p :=
  ⟨h.right, h.left, h.limit.symm, h.lent.symm,
    fun most hmost => (h.within most (h.limit ▸ hmost)).symm⟩

theorem release (h : p.Twin p') (b b' : Buffer α n) : (p.release b).Twin (p'.release b') where
  left   := h.left.release b
  right  := h.right.release b'
  limit  := h.limit
  lent   := by
    have := h.lent
    simp only [Pool.available, Pool.release, List.length_cons] at this ⊢
    omega
  within := h.within

/-- A pool that has lent all it may has nothing to lend, and neither has one that is like it. -/
theorem acquire_error [Inhabited α] (h : p.Twin p') {f : Fault} (hacquire : p.acquire = .error f) :
    p'.acquire = .error f := by
  obtain ⟨hspare, hexhausted, rfl⟩ := Pool.acquire_error hacquire
  obtain ⟨most, hmost, hle⟩ : ∃ most, p.limit = some most ∧ most ≤ p.allocated := by
    simpa [isExhausted, Option.any_eq_true] using hexhausted
  have hlent := h.lent
  obtain ⟨hwithin, hwithin'⟩ := h.within most hmost
  simp only [Pool.available, hspare, List.length_nil] at hlent
  have hspare' : p'.spare = [] := List.length_eq_zero_iff.mp (by omega)
  have hexhausted' : p'.isExhausted = true := by
    rw [isExhausted, ← h.limit, hmost, Option.any_some, decide_eq_true_eq]
    omega
  have hallocated : p'.allocated = p.allocated := by omega
  simp only [Pool.acquire, takeSpare?, hspare', allocate, hexhausted', if_true, hallocated]

/-- **Twin pools lend empty batches, or both have none.** -/
theorem acquire [Inhabited α] (h : p.Twin p') :
    (∃ f, p.acquire = .error f ∧ p'.acquire = .error f) ∨
    ∃ b q b' q', p.acquire = .ok (b, q) ∧ p'.acquire = .ok (b', q') ∧ b.batch.items = [] ∧
      b'.batch.items = [] ∧ q.Twin q' := by
  cases hacquire : p.acquire with
  | error f => exact .inl ⟨f, rfl, h.acquire_error hacquire⟩
  | ok lent =>
      cases hacquire' : p'.acquire with
      | error f => cases hacquire.symm.trans (h.symm.acquire_error hacquire')
      | ok lent' =>
          obtain ⟨⟨b, q⟩, b', q'⟩ := lent, lent'
          obtain ⟨hitems, hclean⟩ := h.left.acquire hacquire
          obtain ⟨hitems', hclean'⟩ := h.right.acquire hacquire'
          obtain ⟨hlent, hwithin⟩ := lent_of_acquire hacquire
          obtain ⟨hlent', hwithin'⟩ := lent_of_acquire hacquire'
          have hlimit := limit_of_acquire hacquire
          have hlimit' := limit_of_acquire hacquire'
          refine .inr ⟨b, q, b', q', rfl, rfl, hitems, hitems', hclean, hclean', ?_, ?_, ?_⟩
          · rw [hlimit, hlimit', h.limit]
          · have := h.lent
            omega
          · refine fun most hmost => ⟨hwithin (fun k hk => (h.within k hk).1) most hmost,
              hwithin' (fun k hk => (h.within k (h.limit ▸ hk)).2) most ?_⟩
            rwa [hlimit', ← h.limit, ← hlimit]

end Twin

end Pool

/-! ### Handing over -/

namespace Stage

variable {Q : Type} [Sink Q (Buffer α n)] {R : Buffer α n → Buffer α n → Prop} {S : Q → Q → Prop}
  {q q' : Q}

theorem ensureOpen_congr (h : Sink.isClosed q = Sink.isClosed q') :
    ensureOpen q = ensureOpen q' := by
  rw [ensureOpen, ensureOpen, h]

/-- Twin batches that are handed over have the same fate. -/
theorem handOver_alike (agrees : Sink.Agrees R S) (hq : S q q') {p p' : Pool α n} (hp : p.Twin p')
    {b b' : Buffer α n} (hb : R b b') :
    ∃ k k' o o' sent, handOver q p b = (k, o, sent) ∧ handOver q' p' b' = (k', o', sent) ∧
      S k k' ∧ o.Twin o' := by
  obtain ⟨k, k', hk, ⟨hsend, hsend'⟩ | ⟨hsend, hsend'⟩ | ⟨hsend, hsend'⟩⟩ := agrees.send hq hb
  · exact ⟨k, k', p, p', .ok (), by rw [handOver, hsend], by rw [handOver, hsend'], hk, hp⟩
  · exact ⟨k, k', p.release b, p'.release b', .error .stalled, by rw [handOver, hsend],
      by rw [handOver, hsend'], hk, hp.release b b'⟩
  · exact ⟨k, k', p.release b, p'.release b', .error (.fault .queueClosed),
      by rw [handOver, hsend], by rw [handOver, hsend'], hk, hp.release b b'⟩

end Stage

/-! ### Taking bytes in -/

namespace Intake

/-- **Batches that show the same are filled with the same**, whatever lies in their slots. -/
theorem fill_alike (talkers : Talkers) (batch : Batch Sentence n) (tally : Tally)
    (bytes : List UInt8) {batch' : Batch Sentence n} (h : shownIn batch = shownIn batch') :
    let filled  := fill talkers batch tally bytes
    let filled' := fill talkers batch' tally bytes
    shownIn filled.batch = shownIn filled'.batch ∧ filled.tally = filled'.tally ∧
      filled.rest = filled'.rest ∧ filled.done = filled'.done := by
  fun_induction fill talkers batch tally bytes generalizing batch' with
  -- the bytes are used up
  | case1 batch tally bytes hskip =>
      rw [fill_of_nil talkers batch' tally hskip]
      exact ⟨h, rfl, rfl, rfl⟩
  -- the batch is full, and so is the other
  | case2 batch tally bytes b r hskip hclaim =>
      have hfull : batch'.claim? = none := by
        rw [Batch.claim?_eq_none_iff, ← Batch.isFull_of_shown h]
        exact Batch.claim?_eq_none_iff.mp hclaim
      rw [fill_of_full talkers tally hskip hfull]
      exact ⟨h, rfl, rfl, rfl⟩
  -- the line is a sentence
  | case3 batch tally bytes b r hskip body old claimed hclaim s size hparse written hsize =>
      rename_i ih
      obtain ⟨old', claimed', hclaim'⟩ := Batch.claim?_of_shown h hclaim
      rcases hparse' : old'.parseSize talkers (Sentence.body (b :: r)) with ⟨s', size'⟩
      obtain ⟨rfl, hshown⟩ := Sentence.parseSize_congr hparse hparse'
      rw [fill_of_parse talkers tally hskip hclaim' hparse' hsize]
      refine ih ?_
      rw [(shownIn_of_claim? hclaim s).1, (shownIn_of_claim? hclaim' s').1, h, hshown hsize]
  -- the line is skipped
  | case4 batch tally bytes b r hskip body old claimed hclaim s size hparse written hsize next
      hafter =>
      rename_i ih
      obtain ⟨old', claimed', hclaim'⟩ := Batch.claim?_of_shown h hclaim
      rcases hparse' : old'.parseSize talkers (Sentence.body (b :: r)) with ⟨s', size'⟩
      obtain ⟨rfl, -⟩ := Sentence.parseSize_congr hparse hparse'
      rw [fill_of_refused talkers tally hskip hclaim' hparse' hsize,
        show afterLine? (Sentence.body (b :: r)) = some next from hafter]
      refine ih ?_
      rw [(shownIn_of_claim? hclaim s).2, (shownIn_of_claim? hclaim' s').2, h]
  -- the line has no end yet
  | case5 batch tally bytes b r hskip body old claimed hclaim s size hparse written hsize =>
      rename_i hafter
      obtain ⟨old', claimed', hclaim'⟩ := Batch.claim?_of_shown h hclaim
      rcases hparse' : old'.parseSize talkers (Sentence.body (b :: r)) with ⟨s', size'⟩
      obtain ⟨rfl, -⟩ := Sentence.parseSize_congr hparse hparse'
      rw [fill_of_refused talkers tally hskip hclaim' hparse' hsize,
        show afterLine? (Sentence.body (b :: r)) = none from hafter]
      refine ⟨?_, rfl, rfl, rfl⟩
      rw [(shownIn_of_claim? hclaim s).2, (shownIn_of_claim? hclaim' s').2, h]

/-- The intakes take the same sentences, have counted the same, and stand between twin pools and
related sinks. -/
structure Twin (S : Q → Q → Prop) (i i' : Intake Q n) : Prop where
  talkers : i.talkers = i'.talkers
  pool    : i.pool.Twin i'.pool
  sink    : S i.sink i'.sink
  tally   : i.tally = i'.tally

/-- Batches of sentences that show the same. -/
abbrev SameSentences : Buffer Sentence n → Buffer Sentence n → Prop :=
  Buffer.Twin Sentence.shown Sentence.HasForm

variable {S : Q → Q → Prop} [Sink Q (Buffer Sentence n)]

/-- The batch that has been filled goes to the sink, or back to the pool if nothing is in it. -/
def settle (i : Intake Q n) (pool : Pool Sentence n) (b : Buffer Sentence n) (tally : Tally) :
    Intake Q n × Except Halt Unit :=
  if b.batch.isEmpty then ({ i with pool := pool.release b, tally }, .ok ())
  else
    let (sink, pool, sent) := Stage.handOver i.sink pool b
    ({ i with pool, sink, tally }, sent)

theorem settle_alike (agrees : Sink.Agrees SameSentences S) {i i' : Intake Q n} (h : i.Twin S i')
    {pool pool' : Pool Sentence n} (hpool : pool.Twin pool') {b b' : Buffer Sentence n}
    (hb : SameSentences b b') (tally : Tally) :
    EndAlike (Twin S) Eq (i.settle pool b tally) (i'.settle pool' b' tally) := by
  rw [settle, settle, ← Batch.isEmpty_of_shown hb.shown]
  cases b.batch.isEmpty with
  | true => exact .answered ⟨h.talkers, hpool.release b b', h.sink, rfl⟩ rfl
  | false =>
      obtain ⟨k, k', o, o', sent, hand, hand', hk, ho⟩ :=
        Stage.handOver_alike agrees h.sink hpool hb
      simp only [Bool.false_eq_true, if_false, hand, hand']
      have hj : Twin S ⟨i.talkers, o, k, tally⟩ ⟨i'.talkers, o', k', tally⟩ :=
        ⟨h.talkers, ho, hk, rfl⟩
      cases sent with
      | error stop => exact .failed hj stop
      | ok sent => exact .answered hj rfl

/-- One round of the loop, told by what it finds. -/
theorem batches_eq (i : Intake Q n) (bytes : List UInt8) :
    i.batches bytes =
      if bytes.isEmpty then (i, .ok bytes)
      else if Sink.isClosed i.sink then (i, .error (.fault .queueClosed))
      else if Sink.isFull i.sink then (i, .ok bytes)
      else
        match i.pool.acquire with
        | .error f      => (i, .error (.fault f))
        | .ok (b, pool) =>
          let filled := fill i.talkers b.batch i.tally bytes
          let (j, sent) := i.settle pool { b with batch := filled.batch } filled.tally
          match sent with
          | .error stop => (j, .error stop)
          | .ok ()      =>
            if filled.done then (j, .ok filled.rest)
            else if filled.rest.length < bytes.length then j.batches filled.rest
            else (j, .ok filled.rest) := by
  rw [batches, Stage.ensureOpen]
  cases Sink.isClosed i.sink with
  | true => rfl
  | false =>
      cases i.pool.acquire with
      | error f => rfl
      | ok lent => rfl

/-- Twin intakes end alike after all rounds. -/
theorem batches_alike (agrees : Sink.Agrees SameSentences S) {i i' : Intake Q n}
    (h : i.Twin S i') (bytes : List UInt8) :
    EndAlike (Twin S) Eq (i.batches bytes) (i'.batches bytes) := by
  induction hlength : bytes.length using Nat.strongRecOn generalizing i i' bytes with
  | ind m ih =>
      rw [batches_eq i, batches_eq i', ← agrees.isClosed h.sink, ← agrees.isFull h.sink]
      cases bytes.isEmpty with
      | true => exact .answered h rfl
      | false =>
      cases Sink.isClosed i.sink with
      | true => exact .failed h _
      | false =>
      cases Sink.isFull i.sink with
      | true => exact .answered h rfl
      | false =>
      rcases h.pool.acquire with
        ⟨f, hacquire, hacquire'⟩ | ⟨b, pool, b', pool', hacquire, hacquire', hb, hb', hpool⟩
      · rw [hacquire, hacquire']
        exact .failed h _
      · -- the batches of either side are filled with the same, and settled alike
        obtain ⟨hshown, htally, hrest, hdone⟩ := fill_alike i.talkers b.batch i.tally bytes
          (show shownIn b.batch = shownIn b'.batch by rw [shownIn, shownIn, hb, hb'])
        have hvalid := fill_hasForm i.talkers i.tally bytes
          (show ∀ s ∈ b.batch.items, s.HasForm by simp [hb])
        simp only [hacquire, hacquire', ← h.talkers, ← h.tally, Bool.false_eq_true, if_false]
        generalize fill i.talkers b.batch i.tally bytes = filled
          at hshown htally hrest hdone hvalid ⊢
        generalize fill i.talkers b'.batch i.tally bytes = filled' at hshown htally hrest hdone ⊢
        have hbatch : SameSentences { b with batch := filled.batch }
            { b' with batch := filled'.batch } := ⟨hshown, hvalid⟩
        have hsettle := settle_alike agrees h hpool hbatch filled.tally
        rw [← htally, ← hrest, ← hdone]
        revert hsettle
        generalize i.settle _ _ _ = settled
        generalize i'.settle _ _ _ = settled'
        rintro (⟨hj, stop⟩ | ⟨hj, -⟩)
        · exact .failed hj stop
        cases filled.done with
        | true => exact .answered hj rfl
        | false =>
        by_cases hshorter : filled.rest.length < bytes.length
        · simp only [Bool.false_eq_true, if_false, if_pos hshorter]
          exact ih _ (hlength ▸ hshorter) hj filled.rest rfl
        · simp only [Bool.false_eq_true, if_false, if_neg hshorter]
          exact .answered hj rfl

/-- **Twin intakes take the same bytes**, and are twins then. -/
theorem ingest_alike (agrees : Sink.Agrees SameSentences S) {i i' : Intake Q n}
    (h : i.Twin S i') (bytes : List UInt8) :
    EndAlike (Twin S) Eq (i.ingest bytes) (i'.ingest bytes) := by
  have hbatches := batches_alike agrees h bytes
  rw [ingest, ingest]
  revert hbatches
  generalize i.batches bytes = x
  generalize i'.batches bytes = x'
  rintro (⟨hj, stop⟩ | ⟨hj, rfl⟩)
  · exact .failed hj stop
  · exact .answered ⟨hj.talkers, hj.pool, hj.sink, by rw [hj.tally]⟩ rfl

end Intake

end Ais
