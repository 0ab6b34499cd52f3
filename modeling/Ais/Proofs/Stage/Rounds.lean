import Ais.Proofs.Stage.Delivery
import Ais.Proofs.Stage.Intake
import Ais.Proofs.Stage.Turns
import Ais.Receiver

/-!
# Intake — round by round

Each round of an intake's loop asks the sink whether there is room, fills one batch that was lent
empty, and delivers it (`Intake.Round`).  Where the round is not the last the batch is full, so a
line has been read and the bytes are fewer; the loop comes to its end after so many rounds, whatever
the bytes are (`batches_rounds`).

Neither this loop nor that of a relay puts anything into a full sink.  So no stage ever waits
(`stages_never_wait`).
-/

namespace Ais

namespace Intake

variable {Q : Type} {n : Nat}

variable [Sink Q (Buffer Sentence n)]

/-- One round: there are bytes, the sink is open and has room, a batch is lent empty and filled, and
it is delivered.  The round is the last one if it leaves nothing that can be read. -/
inductive Round (i : Intake Q n) (bytes : List UInt8) :
    List (Buffer Sentence n) → Intake Q n → List UInt8 → (last : Bool) → Prop where
  | intro {b : Buffer Sentence n} {pool left : Pool Sentence n} {filled : Filled n}
      {sent : List (Buffer Sentence n)} {sink : Q} (bytesLeft : bytes ≠ [])
      (isOpen : Sink.isClosed i.sink = false) (room : Sink.isFull i.sink = false)
      (lent : i.pool.acquire = .ok (b, pool)) (blank : b.batch.items = [])
      (fills : fill i.talkers b.batch i.tally bytes = filled)
      (delivers : Stage.Delivers i.sink pool { b with batch := filled.batch } sent sink left) :
      Round i bytes sent ⟨i.talkers, left, sink, filled.tally⟩ filled.rest filled.done

/-- Round after round, and the batches they put into the sink; each but the last takes bytes. -/
inductive Rounds :
    Intake Q n → List UInt8 → List (Buffer Sentence n) → Intake Q n → List UInt8 → (last : Bool) →
      Prop where
  | none (i : Intake Q n) (bytes : List UInt8) : Rounds i bytes [] i bytes false
  | last {i j : Intake Q n} {bytes rest : List UInt8} {sent : List (Buffer Sentence n)}
      (round : Round i bytes sent j rest true) : Rounds i bytes sent j rest true
  | next {i j k : Intake Q n} {bytes middle rest : List UInt8}
      {sent more : List (Buffer Sentence n)} {last : Bool}
      (round : Round i bytes sent j middle false) (shorter : middle.length < bytes.length)
      (rounds : Rounds j middle more k rest last) : Rounds i bytes (sent ++ more) k rest last

/-- Why no round begins, and what is answered then. -/
inductive Stops (i : Intake Q n) (bytes : List UInt8) : Except Halt (List UInt8) → Prop where
  | consumed (none : bytes = []) : Stops i bytes (.ok bytes)
  | closed (more : bytes ≠ []) (isClosed : Sink.isClosed i.sink = true) :
      Stops i bytes (.error (.fault .queueClosed))
  | full (more : bytes ≠ []) (isOpen : Sink.isClosed i.sink = false)
      (isFull : Sink.isFull i.sink = true) : Stops i bytes (.ok bytes)
  | exhausted {made : Nat} (more : bytes ≠ []) (isOpen : Sink.isClosed i.sink = false)
      (room : Sink.isFull i.sink = false)
      (lent : i.pool.acquire = .error (.poolExhausted made)) :
      Stops i bytes (.error (.fault (.poolExhausted made)))

variable {i j : Intake Q n} {bytes rest : List UInt8} {sent : List (Buffer Sentence n)} {last : Bool}

theorem Round.clean (h : Round i bytes sent j rest last) (hclean : i.pool.Clean) : j.pool.Clean := by
  cases h with
  | intro _ _ _ lent _ _ delivers => exact delivers.clean (hclean.acquire lent).2

theorem Rounds.clean (h : Rounds i bytes sent j rest last) (hclean : i.pool.Clean) :
    j.pool.Clean := by
  induction h with
  | none => exact hclean
  | last round => exact round.clean hclean
  | next round _ _ ih => exact ih (round.clean hclean)

/-- A round that is not the last takes bytes. -/
theorem Round.length_lt (h : Round i bytes sent j rest false) (hn : 0 < n) :
    rest.length < bytes.length := by
  generalize hlast : false = last at h
  cases h with
  | intro _ _ _ _ blank fills _ =>
      subst fills
      exact length_fill_rest hn i.talkers blank i.tally bytes hlast.symm

theorem Stops.ne_stalled {answer : Except Halt (List UInt8)} (h : Stops i bytes answer) :
    answer ≠ .error .stalled := by
  cases h <;> simp

/-- **A round begins, or none does.** -/
theorem round_or_stops (willing : Sink.Willing Q) (hclean : i.pool.Clean) (bytes : List UInt8) :
    (∃ sent j rest last, Round i bytes sent j rest last) ∨ ∃ answer, Stops i bytes answer := by
  by_cases hbytes : bytes = []
  · exact .inr ⟨_, .consumed hbytes⟩
  by_cases hclosed : Sink.isClosed i.sink = true
  · exact .inr ⟨_, .closed hbytes hclosed⟩
  rw [Bool.not_eq_true] at hclosed
  by_cases hfull : Sink.isFull i.sink = true
  · exact .inr ⟨_, .full hbytes hclosed hfull⟩
  rw [Bool.not_eq_true] at hfull
  cases hlent : i.pool.acquire with
  | error f =>
      obtain ⟨-, -, rfl⟩ := Pool.acquire_error hlent
      exact .inr ⟨_, .exhausted hbytes hclosed hfull hlent⟩
  | ok lent =>
      obtain ⟨b, pool⟩ := lent
      obtain ⟨sent, sink, left, hdelivers⟩ := Stage.delivers willing hclosed hfull pool
        { b with batch := (fill i.talkers b.batch i.tally bytes).batch }
      exact .inl ⟨sent, _, _, _,
        .intro hbytes hclosed hfull hlent (hclean.acquire hlent).1 rfl hdelivers⟩

/-- After a round the loop goes on with the bytes left, unless the round was the last. -/
theorem batches_of_round (h : Round i bytes sent j rest last) :
    i.batches bytes = if last then (j, .ok rest)
      else if rest.length < bytes.length then j.batches rest else (j, .ok rest) := by
  cases h with
  | @intro b pool left filled sent sink bytesLeft isOpen room lent blank fills delivers =>
      have hisEmpty : bytes.isEmpty = false := by simpa using bytesLeft
      rw [batches, hisEmpty, Stage.ensureOpen_of_open isOpen]
      simp only [room, lent, fills, Bool.false_eq_true, if_false]
      cases delivers with
      | nothing empty => simp only [empty, if_true]
      | taken filled put => simp only [filled, Stage.handOver, put, Bool.false_eq_true, if_false]

/-- Where no round begins, nothing more is taken. -/
theorem batches_of_stops {answer : Except Halt (List UInt8)} (h : Stops i bytes answer) :
    i.batches bytes = (i, answer) := by
  have hisEmpty : bytes ≠ [] → bytes.isEmpty = false := by simp
  cases h with
  | consumed none =>
      rw [batches, none]
      rfl
  | closed more isClosed =>
      rw [batches, hisEmpty more, Stage.ensureOpen_of_closed isClosed]
      rfl
  | full more isOpen isFull =>
      rw [batches, hisEmpty more, Stage.ensureOpen_of_open isOpen]
      simp only [isFull, Bool.false_eq_true, if_false, if_true]
  | exhausted more isOpen room lent =>
      rw [batches, hisEmpty more, Stage.ensureOpen_of_open isOpen]
      simp only [room, lent, Bool.false_eq_true, if_false]

/-- **The loop is a number of rounds**, and ends with the last one or where none begins. -/
theorem batches_rounds (willing : Sink.Willing Q) (hn : 0 < n) (hclean : i.pool.Clean)
    (bytes : List UInt8) :
    ∃ sent j rest last answer, Rounds i bytes sent j rest last ∧ i.batches bytes = (j, answer) ∧
      if last then answer = .ok rest else Stops j rest answer := by
  induction hlength : bytes.length using Nat.strongRecOn generalizing i bytes with
  | ind m ih =>
      rcases round_or_stops willing hclean bytes with ⟨sent, j, rest, last, hround⟩ | ⟨answer, hstops⟩
      · have hbatches := batches_of_round hround
        cases last with
        | true => exact ⟨sent, j, rest, true, .ok rest, .last hround, hbatches, rfl⟩
        | false =>
            have hshorter := hround.length_lt hn
            obtain ⟨more, k, rest', last, answer, hrounds, hmore, hend⟩ :=
              ih rest.length (hlength ▸ hshorter) (hround.clean hclean) rest rfl
            refine ⟨sent ++ more, k, rest', last, answer, .next hround hshorter hrounds, ?_, hend⟩
            rw [hbatches, if_neg Bool.false_ne_true, if_pos hshorter, hmore]
      · exact ⟨[], i, bytes, false, answer, .none i bytes, batches_of_stops hstops, hstops⟩

end Intake

/-- **No stage ever waits**, be it a ring or a channel that it puts into, of any capacity and with
anything in it.  The loop of an intake is a number of rounds and that of a relay a number of turns,
and each of them puts one batch at most, into the sink that was just found to have room, which takes
it.  In a turn each record finds a slot of the batch that was lent, so it is neither passed over nor
does the batch have to be handed over before.  A loop ends with its input or its budget, or because
the sink is full or closed, the source dry or the pool exhausted, and never with a batch in hand.

The pools have to lend empty batches, which they do again afterwards. -/
theorem stages_never_wait :
    (∀ α : Type, Sink.Willing (Ring α) ∧ Sink.Willing (Channel α)) ∧
    (∀ {Q : Type} {n : Nat} [Sink Q (Buffer Sentence n)] (i : Intake Q n) (bytes : List UInt8),
      Sink.Willing Q → 0 < n → i.pool.Clean →
        ∃ sent j rest last answer, Intake.Rounds i bytes sent j rest last ∧ j.pool.Clean ∧
          i.batches bytes = (j, answer) ∧
          (if last then answer = .ok rest else Intake.Stops j rest answer) ∧
          (i.ingest bytes).2 = answer.map (bytes.length - ·.length) ∧
          (i.ingest bytes).2 ≠ .error .stalled) ∧
    (∀ {S K σ α β : Type} {n : Nat} [Inhabited β] [Sink K (Buffer β n)] [Source S (Buffer α n)]
      (c : Conversion σ α β) (r : Relay S K σ α β n) (budget : Nat),
      Sink.Willing K → r.outputs.Clean →
        ∃ k sent s, Relay.Turns c r k sent s ∧ sent.length ≤ k ∧ s.outputs.Clean ∧
          (k = budget ∧ r.handle c budget = (s, .ok k) ∨
            ∃ answer t, k < budget ∧ Relay.Stops s answer t ∧
              r.handle c budget = (t, answer.map fun _ => k)) ∧
          (r.handle c budget).2 ≠ .error .stalled) := by
  refine ⟨fun α => ⟨Ring.willing, Channel.willing⟩, ?intake, ?relay⟩
  case intake =>
    intro Q n _ i bytes willing hn hclean
    obtain ⟨sent, j, rest, last, answer, hrounds, hbatches, hend⟩ :=
      Intake.batches_rounds willing hn hclean bytes
    have hingest : (i.ingest bytes).2 = answer.map (bytes.length - ·.length) := by
      rw [Intake.ingest, hbatches]
      cases answer <;> rfl
    have hanswer : answer ≠ .error .stalled := by
      cases last with
      | true =>
          intro hstalled
          cases hend.symm.trans hstalled
      | false => exact Intake.Stops.ne_stalled hend
    exact ⟨sent, j, rest, last, answer, hrounds, hrounds.clean hclean, hbatches, hend, hingest,
      hingest ▸ Stage.map_ne_stalled hanswer _⟩
  case relay =>
    intro S K σ α β n _ _ _ c r budget willing hclean
    obtain ⟨k, sent, s, hturns, hend⟩ := Relay.handle_turns willing c budget hclean
    refine ⟨k, sent, s, hturns, hturns.length_le, hturns.clean hclean, hend, ?_⟩
    rcases hend with ⟨-, hhandle⟩ | ⟨answer, t, -, hstops, hhandle⟩
    · rw [hhandle]
      intro hstalled
      cases hstalled
    · rw [hhandle]
      exact Stage.map_ne_stalled hstops.ne_stalled _

/-- Two sentences and channels of one slot: the first is taken in with its line feed, the second is
left for later, and the relay behind converts the one batch that there is. -/
theorem stages_never_wait_two :
    let link {α : Type} : Link α 1 := ⟨⟨#[none], 0, 0, false⟩, false⟩
    let i : Intake (Link Sentence 1) 1 := ⟨.any, .empty none, link, .zero⟩
    let bytes := Ascii.ofString "AIVDM,1,1,,A,w0h,2*0B\nAIVDM,1,1,,A,w0h,2*0B\n"
    let r : Section Assembly Sentence Message 1 :=
      ⟨(i.ingest bytes).1.sink, .empty none, link, .empty none, .empty, .zero⟩
    i.pool.Clean ∧ r.outputs.Clean ∧ (i.ingest bytes).2 = .ok 22 ∧
      (∃ sent j last, Intake.Rounds i bytes sent j (bytes.drop 22) last ∧
        Sink.isFull j.sink = true) ∧
      (r.handle assembling 3).2 = .ok 1 ∧
      ∃ sent s, Relay.Turns assembling r 1 sent s ∧ sent.length ≤ 1 := by
  intro link i bytes r
  have hpool : i.pool.Clean := fun _ h => absurd h List.not_mem_nil
  have houtputs : r.outputs.Clean := fun _ h => absurd h List.not_mem_nil
  have hingest : (i.ingest bytes).2 = .ok 22 := by decide +kernel
  have hhandle : (r.handle assembling 3).2 = .ok 1 := by decide +kernel
  refine ⟨hpool, houtputs, hingest, ?_, hhandle, ?_⟩
  · obtain ⟨sent, j, rest, last, answer, hrounds, -, hbatches, hend, -, -⟩ :=
      stages_never_wait.2.1 i bytes Channel.willing Nat.one_pos hpool
    have hrest : answer = .ok (bytes.drop 22) := by
      have hbytes : (i.batches bytes).2 = .ok (bytes.drop 22) := by decide +kernel
      rwa [hbatches] at hbytes
    have hfull : Sink.isFull j.sink = true := by
      have hsink : Sink.isFull (i.batches bytes).1.sink = true := by decide +kernel
      rwa [hbatches] at hsink
    have hleft : rest = bytes.drop 22 := by
      cases last with
      | true => exact Except.ok.inj (hend.symm.trans hrest)
      | false =>
          rw [if_neg Bool.false_ne_true, hrest] at hend
          cases hend <;> rfl
    exact ⟨sent, j, last, hleft ▸ hrounds, hfull⟩
  · obtain ⟨k, sent, s, hturns, hlength, -, hend, -⟩ :=
      stages_never_wait.2.2 assembling r 3 Channel.willing houtputs
    have hk : k = 1 := by
      rcases hend with ⟨rfl, hthree⟩ | ⟨answer, t, -, -, hsome⟩
      · rw [hthree] at hhandle
        cases hhandle
      · rw [hsome] at hhandle
        cases answer with
        | ok => exact Except.ok.inj hhandle
        | error => cases hhandle
    subst hk
    exact ⟨sent, s, hturns, hlength⟩

end Ais
