import Ais.Proofs.Pool
import Ais.Proofs.Queue.Closing
import Ais.Proofs.Stage.Intake
import Ais.Station.Feeder

/-!
# Station — what the feeder can do in one step

The feeder holds one batch at most, an empty one that it is about to fill, or one of sentences that
were read and that it is about to hand over (`Feeder.Fits`).  `Feeder.Step` lists what a step can do
to a feeder that stands so before its channel, and `step_step` says that there is nothing else.
-/

namespace Ais

variable {n : Nat}

namespace Feeder

/-! ### What the feeder has in hand -/

/-- The feeder holds nothing, and has not seen that there is room. -/
def isFree : Feeder n → Bool
  | idle _ | look _ _ | room _ _ | count _ _ => true
  | _ => false

/-- What the last call failed with. -/
def fault? : Feeder n → Option Fault
  | idle (some (.error f)) => some f
  | _ => none

/-- A batch to be filled is empty, and one to be handed over holds sentences that were read. -/
def Fits : Feeder n → Prop
  | fill _ _ b   => b.batch.items = []
  | send _ _ _ b => ∀ s ∈ b.batch.items, s.HasForm
  | _            => True

theorem isFree_proceed (size : Nat) (bytes : List UInt8) (done : Bool) :
    (proceed size bytes done : Feeder n).isFree = true ∧
      (proceed size bytes done : Feeder n).fault? = none := by
  unfold proceed
  split <;> exact ⟨rfl, rfl⟩

/-! ### One step -/

/-- What the feeder does in one step, if all fits. -/
inductive Step : Feeder n → Intake (Link Sentence n) n → Feeder n → Intake (Link Sentence n) n →
    Prop where
  /-- It is idle, or waits to put. -/
  | rests {f : Feeder n} {i} : Step f i f i
  /-- It goes on, gives up on a closed channel, or is done. -/
  | turns {f g : Feeder n} {i} (tally : Tally) (hf : f.isFree) (hg : g.isFree)
      (hfault : g.fault? = none ∨ g.fault? = some .queueClosed) : Step f i g { i with tally }
  | findsRoom {i size bytes} (h : i.sink.contents.length < i.sink.ring.capacity) :
      Step (room size bytes) i (borrow size bytes) i
  | borrows {i size bytes b pool} (h : i.pool.takeSpare? = some (b, pool)) :
      Step (borrow size bytes) i (fill size bytes b) { i with pool }
  | findsNone {i size bytes} (h : i.pool.spare = []) :
      Step (borrow size bytes) i (allocate size bytes) i
  | allocates {i size bytes b pool} (h : i.pool.allocate = .ok (b, pool)) :
      Step (allocate size bytes) i (fill size bytes b) { i with pool }
  | starves {i size bytes f} (h : i.pool.allocate = .error f) :
      Step (allocate size bytes) i (idle (some (.error f))) i
  | fills {i size bytes rest done b b'} (tally : Tally) (h : ∀ s ∈ b'.batch.items, s.HasForm) :
      Step (fill size bytes b) i (send size rest done b') { i with tally }
  | drops {i size bytes b b'} {g : Feeder n} (tally : Tally) (hg : g.isFree)
      (hfault : g.fault? = none) :
      Step (fill size bytes b) i g { i with pool := i.pool.release b', tally }
  | sends {i size bytes done b sink} {g : Feeder n} (hopen : i.sink.ring.closed = false)
      (h : i.sink.Gains b sink) (hg : g.isFree)
      (hfault : g.fault? = none) : Step (send size bytes done b) i g { i with sink }
  | refused {i size bytes done b} :
      Step (send size bytes done b) i (idle (some (.error .queueClosed)))
        { i with pool := i.pool.release b }

/-- **The feeder does nothing but what `Feeder.Step` says**, if all fits. -/
theorem step_step (f : Feeder n) (i : Intake (Link Sentence n) n) (hfits : f.Fits)
    (hsink : i.sink.IsList) : Step f i (f.step i).1 (f.step i).2 := by
  cases f with
  | idle answer => exact .rests
  | look size bytes =>
      simp only [step]
      split
      · exact .turns _ rfl rfl (.inl rfl)
      · split
        · exact .turns _ rfl rfl (.inr rfl)
        · exact .turns _ rfl rfl (.inl rfl)
  | room size bytes =>
      simp only [step]
      split
      case isTrue => exact .turns _ rfl rfl (.inl rfl)
      case isFalse hfull => exact .findsRoom (hsink.length_lt (Bool.eq_false_iff.mpr hfull))
  | borrow size bytes =>
      simp only [step]
      cases h : i.pool.takeSpare? with
      | none => exact .findsNone (Pool.takeSpare?_none h)
      | some lent => exact .borrows h
  | allocate size bytes =>
      simp only [step]
      cases h : i.pool.allocate with
      | error f => exact .starves h
      | ok lent => exact .allocates h
  | fill size bytes b =>
      have hnone : ∀ s ∈ b.batch.items, s.HasForm := fun s hs => by
        rw [show b.batch.items = [] from hfits] at hs
        cases hs
      have hread := Intake.fill_hasForm i.talkers i.tally bytes hnone
      obtain ⟨hfree, hfault⟩ := isFree_proceed (n := n) size
        (Intake.fill i.talkers b.batch i.tally bytes).rest
        (Intake.fill i.talkers b.batch i.tally bytes).done
      simp only [step]
      split
      · exact .drops _ hfree hfault
      · exact .fills _ hread
  | send size bytes done b =>
      obtain ⟨hfree, hfault⟩ := isFree_proceed (n := n) size bytes done
      simp only [step, Sink.send]
      rcases hsink.push_cases b with ⟨-, hpush⟩ | ⟨-, hpush⟩ | ⟨sink, hpush, hopen, hgains⟩
      · rw [hpush]
        exact .refused
      · rw [hpush]
        exact .rests
      · rw [hpush]
        exact .sends hopen hgains hfree hfault
  | count size bytes => exact .turns _ rfl rfl (.inl rfl)

/-- All fits: the channel is a list, and nothing is in the spare batches. -/
structure Tidy (f : Feeder n) (i : Intake (Link Sentence n) n) : Prop where
  sink : i.sink.IsList
  pool : i.pool.Clean
  fits : f.Fits

theorem fits_of_isFree {f : Feeder n} (h : f.isFree) : f.Fits := by
  cases f
  case fill | send => cases h
  all_goals exact trivial

/-- **All fits after a step.** -/
theorem Step.tidy {f g : Feeder n} {i j : Intake (Link Sentence n) n} (h : Step f i g j)
    (ht : f.Tidy i) : g.Tidy j := by
  obtain ⟨hsink, hpool, hfits⟩ := ht
  cases h with
  | rests => exact ⟨hsink, hpool, hfits⟩
  | turns _ _ hg => exact ⟨hsink, hpool, fits_of_isFree hg⟩
  | findsRoom | findsNone | starves => exact ⟨hsink, hpool, trivial⟩
  | borrows h =>
      obtain ⟨hitems, hclean⟩ := hpool.takeSpare? h
      exact ⟨hsink, hclean, hitems⟩
  | allocates h =>
      obtain ⟨hitems, hclean⟩ := hpool.allocate h
      exact ⟨hsink, hclean, hitems⟩
  | fills _ h => exact ⟨hsink, hpool, h⟩
  | drops _ hg => exact ⟨hsink, hpool.release _, fits_of_isFree hg⟩
  | sends _ h hg => exact ⟨h.isList, hpool, fits_of_isFree hg⟩
  | refused => exact ⟨hsink, hpool.release _, trivial⟩

end Feeder

end Ais
