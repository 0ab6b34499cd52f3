import Ais.Proofs.Stage.Delivery
import Ais.Proofs.Stage.Relay

/-!
# Relays — turn by turn

Each turn of a relay's loop asks the sink whether there is room, takes one batch, converts it into
one batch that was lent empty, and delivers that (`Relay.Turn`).  A batch has no more records than
the one they go into has slots, so at each record there is a slot left (`Conversion.Fills`): the
batch is never full before its time, no record is passed over, and there is one put at most, into
the very sink that had room.  Whatever the source gives and whatever is remembered, a run of the
loop is so many turns, and then the budget is used up or the next turn cannot begin
(`handle_turns`).
-/

namespace Ais.Relay

variable {S K σ α β : Type} {n : Nat} {c : Conversion σ α β} [Inhabited β]
  [Sink K (Buffer β n)]

omit [Inhabited β] in
theorem deliver_of_delivers {r : Relay S K σ α β n} {out : Buffer β n} {sent : List (Buffer β n)}
    {sink : K} {left : Pool β n} (h : Stage.Delivers r.sink r.outputs out sent sink left) :
    r.deliver out = ({ r with sink, outputs := left }, .ok ()) := by
  cases h with
  | nothing empty => simp only [deliver, empty, if_true]
  | taken filled put =>
      simp only [deliver, filled, Stage.handOver, put]
      rfl

variable [Source S (Buffer α n)]

/-- One turn: the sink is open and has room, a batch is taken and another is lent empty, there is a
slot for each record, so that sink and pool are as before when all are converted, and what came out
is delivered. -/
inductive Turn (c : Conversion σ α β) (r : Relay S K σ α β n) :
    List (Buffer β n) → Relay S K σ α β n → Prop where
  | intro {source : S} {input : Buffer α n} {out : Buffer β n} {outputs left : Pool β n}
      {memory : σ} {tally : Tally} {batch : Batch β n} {sent : List (Buffer β n)} {sink : K}
      (isOpen : Sink.isClosed r.sink = false) (room : Sink.isFull r.sink = false)
      (received : Source.receive r.source = (source, .ok input))
      (lent : r.outputs.acquire = .ok (out, outputs)) (blank : out.batch.items = [])
      (fills : c.Fills r.memory r.tally out.batch input.batch.items memory tally batch)
      (converts : convert c { r with source, outputs } out input.batch.items =
        ({ r with source, outputs, memory, tally }, .ok { out with batch }))
      (delivers : Stage.Delivers r.sink outputs { out with batch } sent sink left) :
      Turn c r sent ⟨source, r.inputs.release input, sink, left, memory, tally⟩

/-- So many turns, and the batches they put into the sink. -/
inductive Turns (c : Conversion σ α β) :
    Relay S K σ α β n → Nat → List (Buffer β n) → Relay S K σ α β n → Prop where
  | none (r : Relay S K σ α β n) : Turns c r 0 [] r
  | next {r s t : Relay S K σ α β n} {k : Nat} {sent more : List (Buffer β n)}
      (first : Turn c r sent s) (rest : Turns c s k more t) : Turns c r (k + 1) (sent ++ more) t

/-- Why no turn begins: what is answered then, and what the relay is left as. -/
inductive Stops (r : Relay S K σ α β n) : Except Halt Unit → Relay S K σ α β n → Prop where
  | closed (isClosed : Sink.isClosed r.sink = true) : Stops r (.error (.fault .queueClosed)) r
  | full (isOpen : Sink.isClosed r.sink = false) (isFull : Sink.isFull r.sink = true) :
      Stops r (.ok ()) r
  | dry {source : S} {why : Dry} (isOpen : Sink.isClosed r.sink = false)
      (room : Sink.isFull r.sink = false)
      (received : Source.receive r.source = (source, .error why)) :
      Stops r (.ok ()) { r with source }
  | exhausted {source : S} {input : Buffer α n} {made : Nat}
      (isOpen : Sink.isClosed r.sink = false) (room : Sink.isFull r.sink = false)
      (received : Source.receive r.source = (source, .ok input))
      (lent : r.outputs.acquire = .error (.poolExhausted made)) :
      Stops r (.error (.fault (.poolExhausted made)))
        { r with source, inputs := r.inputs.release input }

section
variable {r s t : Relay S K σ α β n} {sent : List (Buffer β n)} {k : Nat}

/-- A turn puts one batch into the sink at most. -/
theorem Turn.length_le (h : Turn c r sent s) : sent.length ≤ 1 := by
  cases h with
  | intro _ _ _ _ _ _ _ delivers => exact delivers.length_le

theorem Turn.clean (h : Turn c r sent s) (hclean : r.outputs.Clean) : s.outputs.Clean := by
  cases h with
  | intro _ _ _ lent _ _ _ delivers => exact delivers.clean (hclean.acquire lent).2

theorem Turns.length_le (h : Turns c r k sent s) : sent.length ≤ k := by
  induction h with
  | none => exact Nat.le_refl 0
  | next first rest ih =>
      have := first.length_le
      rw [List.length_append]
      omega

theorem Turns.clean (h : Turns c r k sent s) (hclean : r.outputs.Clean) : s.outputs.Clean := by
  induction h with
  | none => exact hclean
  | next first rest ih => exact ih (first.clean hclean)

theorem Stops.ne_stalled {answer : Except Halt Unit} (h : Stops r answer s) :
    answer ≠ .error .stalled := by
  cases h <;> simp

/-- **A turn is taken, or none begins.** -/
theorem turn_or_stops (willing : Sink.Willing K) (c : Conversion σ α β) (hclean : r.outputs.Clean) :
    (∃ sent s, Turn c r sent s) ∨ ∃ answer s, Stops r answer s := by
  by_cases hclosed : Sink.isClosed r.sink = true
  · exact .inr ⟨_, r, .closed hclosed⟩
  rw [Bool.not_eq_true] at hclosed
  by_cases hfull : Sink.isFull r.sink = true
  · exact .inr ⟨_, r, .full hclosed hfull⟩
  rw [Bool.not_eq_true] at hfull
  rcases hreceive : Source.receive r.source with ⟨source, why | input⟩
  · exact .inr ⟨_, _, .dry hclosed hfull hreceive⟩
  cases hlent : r.outputs.acquire with
  | error f =>
      obtain ⟨-, -, rfl⟩ := Pool.acquire_error hlent
      exact .inr ⟨_, _, .exhausted hclosed hfull hreceive hlent⟩
  | ok lent =>
      obtain ⟨out, outputs⟩ := lent
      obtain ⟨hitems, -⟩ := hclean.acquire hlent
      obtain ⟨memory, tally, batch, hfills⟩ :=
        fills_of_blank c hitems input.batch r.memory r.tally
      obtain ⟨sent, sink, left, hdelivers⟩ :=
        Stage.delivers willing hclosed hfull outputs { out with batch }
      exact .inl ⟨sent, _, .intro hclosed hfull hreceive hlent hitems hfills
        (convert_of_fills (r := { r with source, outputs }) out hfills) hdelivers⟩

/-- After a turn the loop goes on with what is left of the budget. -/
theorem handle_of_turn (h : Turn c r sent s) (budget : Nat) :
    handle c r (budget + 1) = ((handle c s budget).1, (handle c s budget).2.map (· + 1)) := by
  cases h with
  | @intro source input out outputs left memory tally batch sent sink isOpen room received lent blank
      fills converts delivers =>
      have hdeliver := deliver_of_delivers
        (r := ⟨source, r.inputs, r.sink, outputs, memory, tally⟩) delivers
      have hone : handleOne c { r with source } input =
          (⟨source, r.inputs.release input, sink, left, memory, tally⟩, .ok ()) := by
        simp only [handleOne, lent, converts, hdeliver]
      simp only [handle, Stage.ensureOpen_of_open isOpen, room, received, hone, Bool.false_eq_true,
        if_false]

/-- Where no turn begins, nothing more is converted. -/
theorem handle_of_stops {answer : Except Halt Unit} (h : Stops r answer s) (budget : Nat) :
    handle c r (budget + 1) = (s, answer.map fun _ => 0) := by
  cases h with
  | closed isClosed =>
      simp only [handle, Stage.ensureOpen_of_closed isClosed]
      rfl
  | full isOpen isFull =>
      simp only [handle, Stage.ensureOpen_of_open isOpen, isFull, if_true]
      rfl
  | dry isOpen room received =>
      simp only [handle, Stage.ensureOpen_of_open isOpen, room, received, Bool.false_eq_true, if_false]
      rfl
  | exhausted isOpen room received lent =>
      simp only [handle, Stage.ensureOpen_of_open isOpen, room, received, handleOne, lent,
        Bool.false_eq_true, if_false]
      rfl

/-- **A run of the loop is a number of turns**, and ends with the budget or where no turn begins. -/
theorem handle_turns (willing : Sink.Willing K) (c : Conversion σ α β) (budget : Nat)
    (hclean : r.outputs.Clean) :
    ∃ k sent s, Turns c r k sent s ∧
      (k = budget ∧ handle c r budget = (s, .ok k) ∨
        ∃ answer t, k < budget ∧ Stops s answer t ∧
          handle c r budget = (t, answer.map fun _ => k)) := by
  induction budget generalizing r with
  | zero => exact ⟨0, [], r, .none r, .inl ⟨rfl, rfl⟩⟩
  | succ budget ih =>
      rcases turn_or_stops willing c hclean with ⟨sent, s, hturn⟩ | ⟨answer, s, hstops⟩
      · obtain ⟨k, more, t, hturns, hend⟩ := ih (hturn.clean hclean)
        refine ⟨k + 1, sent ++ more, t, .next hturn hturns, ?_⟩
        rcases hend with ⟨rfl, hhandle⟩ | ⟨answer, u, hlt, hstops, hhandle⟩
        · refine .inl ⟨rfl, ?_⟩
          rw [handle_of_turn hturn, hhandle]
          rfl
        · refine .inr ⟨answer, u, Nat.succ_lt_succ hlt, hstops, ?_⟩
          rw [handle_of_turn hturn, hhandle]
          cases answer <;> rfl
      · exact ⟨0, [], r, .none r,
          .inr ⟨answer, s, Nat.succ_pos budget, hstops, handle_of_stops hstops budget⟩⟩

end

end Ais.Relay
