import Ais.Proofs.Batch
import Ais.Stage.Inlet

/-!
# Intake — a pool with a limit

The pool of an intake may have a limit, and run dry.  Then the intake stops, and says so; up to there
it does what it would do with a pool that has none (`Alike`).  This holds of one batch after the other,
and so of everything that is made of them, up to whole streams (`ingestFrom_unlimited`).
-/

namespace Ais.Intake

variable {Q : Type} {n : Nat} [Sink Q (Buffer Sentence n)]

/-- The intake without the limit of its pool. -/
def unlimited (i : Intake Q n) : Intake Q n := { i with pool := i.pool.unlimited }

omit [Sink Q (Buffer Sentence n)] in
/-- A pool without a limit has none to lose. -/
theorem unlimited_of_none {i : Intake Q n} (h : i.pool.limit = none) : i.unlimited = i := by
  rcases i with ⟨talkers, ⟨spare, allocated, limit⟩, sink, tally⟩
  cases h
  rfl

/-- The intake stops because its pool is dry, or goes on as if it had no limit. -/
def Alike {ρ : Type} (limited : Intake Q n × Except Halt ρ) (free : Intake Q n × Except Halt ρ) :
    Prop :=
  (∃ k, limited.2 = .error (.fault (.poolExhausted k))) ∨
    free = (limited.1.unlimited, limited.2)

omit [Sink Q (Buffer Sentence n)] in
theorem Alike.map {ρ τ : Type} {limited free : Intake Q n × Except Halt ρ}
    (h : Alike limited free) (f : ρ → τ) :
    Alike (limited.1, limited.2.map f) (free.1, free.2.map f) := by
  rcases h with ⟨k, hdry⟩ | rfl
  · exact .inl ⟨k, by rw [hdry]; rfl⟩
  · exact .inr rfl

/-- Handing a batch over does not ask for the limit. -/
theorem handOver_unlimited (sink : Q) (pool : Pool Sentence n) (b : Buffer Sentence n) :
    Stage.handOver sink pool.unlimited b =
      ((Stage.handOver sink pool b).1, (Stage.handOver sink pool b).2.1.unlimited,
        (Stage.handOver sink pool b).2.2) := by
  unfold Stage.handOver
  rcases Sink.send sink b with ⟨sink', ⟨b' | b'⟩ | ⟨⟩⟩ <;> rfl

/-- **Batch by batch** an intake goes on as without a limit, or its pool is dry. -/
theorem batches_unlimited (i : Intake Q n) (bytes : List UInt8) :
    Alike (i.batches bytes) (i.unlimited.batches bytes) := by
  induction hlength : bytes.length using Nat.strongRecOn generalizing i bytes with
  | ind m ih =>
      rw [batches, batches]
      cases hempty : bytes.isEmpty with
      | true => exact .inr rfl
      | false =>
          simp only [Bool.false_eq_true, if_false, show i.unlimited.sink = i.sink from rfl]
          cases Stage.ensureOpen i.sink with
          | error stop => exact .inr rfl
          | ok =>
              cases Sink.isFull i.sink with
              | true => exact .inr rfl
              | false =>
                  cases hacquire : i.pool.acquire with
                  | error f =>
                      obtain ⟨-, -, rfl⟩ := Pool.acquire_error hacquire
                      exact .inl ⟨_, rfl⟩
                  | ok lent =>
                      obtain ⟨b, pool⟩ := lent
                      simp only [show i.unlimited.pool = i.pool.unlimited from rfl,
                        Pool.acquire_unlimited hacquire, Bool.false_eq_true, if_false,
                        handOver_unlimited, show i.unlimited.talkers = i.talkers from rfl,
                        show i.unlimited.tally = i.tally from rfl]
                      generalize fill i.talkers b.batch i.tally bytes = filled
                      -- the next round is alike, whichever intake it starts with
                      have hnext : ∀ j : Intake Q n, Alike
                          (if filled.done then (j, .ok filled.rest)
                            else if filled.rest.length < bytes.length then j.batches filled.rest
                            else (j, .ok filled.rest))
                          (if filled.done then (j.unlimited, .ok filled.rest)
                            else if filled.rest.length < bytes.length then
                              j.unlimited.batches filled.rest
                            else (j.unlimited, .ok filled.rest)) := fun j => by
                        by_cases hdone : filled.done = true
                        · rw [if_pos hdone, if_pos hdone]
                          exact .inr rfl
                        · rw [if_neg hdone, if_neg hdone]
                          by_cases hlt : filled.rest.length < bytes.length
                          · rw [if_pos hlt, if_pos hlt]
                            exact ih _ (hlength ▸ hlt) j filled.rest rfl
                          · rw [if_neg hlt, if_neg hlt]
                            exact .inr rfl
                      cases filled.batch.isEmpty with
                      | true => exact hnext _
                      | false =>
                          rcases Stage.handOver i.sink pool { b with batch := filled.batch } with
                            ⟨sink, left, stop | _⟩
                          · exact .inr rfl
                          · exact hnext _

/-- So does a call. -/
theorem ingest_unlimited (i : Intake Q n) (bytes : List UInt8) :
    Alike (i.ingest bytes) (i.unlimited.ingest bytes) := by
  rw [ingest, ingest]
  rcases batches_unlimited i bytes with ⟨k, hdry⟩ | hfree
  · rcases hresult : i.batches bytes with ⟨j, r⟩
    rw [hresult] at hdry
    cases hdry
    exact .inl ⟨k, rfl⟩
  · rw [hfree]
    rcases i.batches bytes with ⟨j, stop | rest⟩ <;> exact .inr rfl

/-- Once an offer has been answered, the same is done without the limit. -/
theorem offerAll_unlimited_of_offer {i j : Intake Q n} {bytes : List UInt8} {taken : Nat}
    (waited : Bool) (hne : ¬bytes.isEmpty = true) (hopen : ¬Inlet.isClosed i = true)
    (h : Inlet.offer i bytes = (j, .ok taken)) :
    Inlet.offerAll i.unlimited bytes waited =
      if Inlet.isFull j then
        if 0 < taken then Inlet.offerAll j.unlimited (bytes.drop taken) false
        else if waited then (j.unlimited, .error .stalled)
        else Inlet.offerAll j.unlimited bytes true
      else if taken = 0 then (j.unlimited, .ok bytes)
      else Inlet.offerAll j.unlimited (bytes.drop taken) false := by
  have halike := ingest_unlimited i bytes
  rw [show i.ingest bytes = (j, .ok taken) from h] at halike
  rcases halike with ⟨k, hdry⟩ | hsame
  · cases hdry
  · exact Inlet.offerAll_of_offer waited hne
      (show ¬Inlet.isClosed i.unlimited = true from hopen) hsame

/-- So it is when bytes are offered until all have been taken. -/
theorem offerAll_unlimited (i : Intake Q n) (bytes : List UInt8) (waited : Bool) :
    Alike (Inlet.offerAll i bytes waited) (Inlet.offerAll i.unlimited bytes waited) := by
  fun_induction Inlet.offerAll i bytes waited with
  | case1 i bytes waited hempty =>
      rw [Inlet.offerAll, if_pos hempty]
      exact .inr rfl
  | case2 i bytes waited hempty hclosed =>
      rw [Inlet.offerAll, if_neg hempty,
        if_pos (show Inlet.isClosed i.unlimited = true from hclosed)]
      exact .inr rfl
  | case3 i bytes waited hempty hopen j stop hoffer =>
      have halike := ingest_unlimited i bytes
      rw [show i.ingest bytes = (j, .error stop) from hoffer] at halike
      rcases halike with ⟨k, hdry⟩ | hsame
      · cases hdry
        exact .inl ⟨k, rfl⟩
      · have hoffer' : Inlet.offer i.unlimited bytes = (j.unlimited, .error stop) := hsame
        rw [Inlet.offerAll, if_neg hempty,
          if_neg (show ¬Inlet.isClosed i.unlimited = true from hopen), hoffer']
        exact .inr rfl
  -- the sink is full: the rest is offered again, or it has been in vain
  | case4 i bytes waited hempty hopen j taken hoffer hfull hpos ih =>
      rw [offerAll_unlimited_of_offer waited hempty hopen hoffer, if_pos hfull, if_pos hpos]
      exact ih
  | case5 i bytes hempty hopen j taken hoffer hfull hnone =>
      rw [offerAll_unlimited_of_offer true hempty hopen hoffer, if_pos hfull, if_neg hnone]
      exact .inr rfl
  | case6 i bytes waited hempty hopen j taken hoffer hfull hnone hwaited ih =>
      rw [offerAll_unlimited_of_offer waited hempty hopen hoffer, if_pos hfull, if_neg hnone,
        if_neg hwaited]
      exact ih
  -- there is room: the rest is offered again, or there is nothing more to take
  | case7 i bytes waited hempty hopen j hroom hoffer =>
      rw [offerAll_unlimited_of_offer waited hempty hopen hoffer, if_neg hroom, if_pos rfl]
      exact .inr rfl
  | case8 i bytes waited hempty hopen j taken hoffer hroom hsome ih =>
      rw [offerAll_unlimited_of_offer waited hempty hopen hoffer, if_neg hroom, if_neg hsome]
      exact ih

theorem ingestAll_unlimited (i : Intake Q n) (bytes : List UInt8) :
    Alike (Inlet.ingestAll i bytes) (Inlet.ingestAll i.unlimited bytes) := by
  rw [Inlet.ingestAll, Inlet.ingestAll]
  rcases offerAll_unlimited i bytes false with ⟨k, hdry⟩ | hfree
  · exact .inl ⟨k, by simp only [hdry]; rfl⟩
  · rw [hfree]
    exact .inr rfl

theorem closeLine_unlimited (i : Intake Q n) (tail : List UInt8) :
    Alike (Inlet.closeLine i tail) (Inlet.closeLine i.unlimited tail) := by
  rw [Inlet.closeLine, Inlet.closeLine]
  cases tail.isEmpty with
  | true => exact .inr rfl
  | false => exact ingestAll_unlimited i _

/-- **A limit changes nothing but where a stream stops**, with whatever the stream brings. -/
theorem ingestFrom_unlimited (i : Intake Q n) (tail : List UInt8) (arrivals : List Arrival) :
    Alike (Inlet.ingestFrom i tail arrivals) (Inlet.ingestFrom i.unlimited tail arrivals) := by
  induction arrivals generalizing i tail with
  | nil => exact closeLine_unlimited i tail
  | cons arrival more ih =>
      cases arrival with
      | interrupted => exact ih i tail
      | failed text => exact .inr rfl
      | bytes chunk =>
          rw [Inlet.ingestFrom, Inlet.ingestFrom]
          cases chunk.isEmpty with
          | true => exact closeLine_unlimited i tail
          | false =>
              rcases hresult : Inlet.ingestAll i (tail ++ chunk) with ⟨j, r⟩
              have halike := ingestAll_unlimited i (tail ++ chunk)
              rw [hresult] at halike
              rcases halike with ⟨k, hdry⟩ | hfree
              · cases hdry
                exact .inl ⟨k, rfl⟩
              · rw [hfree]
                cases r with
                | error stop => exact .inr rfl
                | ok taken =>
                    by_cases hlong : Limits.tailBytes < ((tail ++ chunk).drop taken).length
                    · have hcount : Inlet.countLine j.unlimited = (Inlet.countLine j).unlimited := rfl
                      have hnext := (ih (Inlet.countLine j) []).map
                        (taken + ((tail ++ chunk).drop taken).length + ·)
                      simpa only [Bool.false_eq_true, if_false, if_pos hlong, hcount] using hnext
                    · have hnext := (ih j ((tail ++ chunk).drop taken)).map (taken + ·)
                      simpa only [Bool.false_eq_true, if_false, if_neg hlong] using hnext

end Ais.Intake
