import Ais.Proofs.Pool
import Ais.Proofs.Queue.Closing
import Ais.Proofs.Stage.Relay
import Ais.Station.Worker

/-!
# Station — what a worker can do in one step

A worker holds a batch of its source and one for its sink in some of its phases, and no other batch:
what comes out of one batch fits into one (`Phase.Fits`), so the batch that is being filled is never
handed over before the last record.  `Phase.Step` lists what a step can do to a worker that stands
so between two channels, and `step_step` says that there is nothing else.
-/

namespace Ais

variable {σ α β : Type} {n : Nat}

namespace Phase

/-! ### What a worker has in hand -/

/-- The records still to be converted. -/
def todo : Phase α β n → List α
  | .borrow _ todo _ | .allocate _ todo _ | .convert _ todo _ | .send _ todo _ _ => todo
  | _ => []

/-- The batch taken from the source. -/
def input? : Phase α β n → Option (Buffer α n)
  | .borrow input _ _ | .allocate input _ _ | .convert input _ _ | .send input _ _ _
  | .giveBack input => some input
  | _ => none

/-- The batch for the sink. -/
def output? : Phase α β n → Option (Buffer β n)
  | .convert _ _ out | .send _ _ out _ => some out
  | _ => none

/-- The records that were converted and not yet handed over. -/
def made (p : Phase α β n) : List β := (p.output?.map (·.batch.items)).getD []

/-- How the calls of the stage came to their end, if they did. -/
def result? : Phase α β n → Option (Except Fault Unit)
  | .closeSink result | .abandonSource result | .left result => some result
  | _ => none

/-- What the stage failed with, if it did. -/
def fault? (p : Phase α β n) : Option Fault :=
  match p.result? with
  | some (.error f) => some f
  | _               => none

theorem fault?_eq_some {p : Phase α β n} {f : Fault} :
    p.fault? = some f ↔ p.result? = some (.error f) := by
  unfold fault?
  split
  case h_1 hresult => simp [hresult]
  case h_2 hresult => simpa using hresult f

/-- The worker holds nothing, and will look at its channels again. -/
def isFree : Phase α β n → Bool
  | .look | .room | .take | .askExhausted | .askClosed | .askEmpty => true
  | _ => false

theorem empty_of_isFree {p : Phase α β n} (h : p.isFree) :
    p.todo = [] ∧ p.input? = none ∧ p.output? = none ∧ p.result? = none := by
  cases p
  case borrow | allocate | convert | send | giveBack | closeSink | abandonSource | left => cases h
  all_goals exact ⟨rfl, rfl, rfl, rfl⟩

/-- There is room in the output batch for what is to do, and no second one. -/
def Fits : Phase α β n → Prop
  | .borrow _ todo full | .allocate _ todo full => full = none ∧ todo.length ≤ n
  | .convert _ todo out                         => out.batch.size + todo.length ≤ n
  | .send _ todo _ next                         => todo = [] ∧ next = none
  | _                                           => True

/-! ### One step -/

/-- What a worker does in one step, if all fits. -/
inductive Step [Inhabited β] (c : Conversion σ α β) (exhausted : Bool) :
    Phase α β n → Section σ α β n → Phase α β n → Section σ α β n → Prop where
  /-- It waits to put, or has left. -/
  | rests {p : Phase α β n} {r} : Step c exhausted p r p r
  /-- It calls the stage again, or asks whether this was the last call. -/
  | turns {p q : Phase α β n} {r} (hp : p.isFree) (hq : q = .look ∨ q = .askExhausted) :
      Step c exhausted p r q r
  | looks {r} : Step c exhausted .look r .room r
  | findsClosed {r} (h : r.sink.ring.closed = true) :
      Step c exhausted .look r (.closeSink (.error .queueClosed)) r
  | findsRoom {r} (h : r.sink.contents.length < r.sink.ring.capacity) :
      Step c exhausted .room r .take r
  | takes {r source input} (h : r.source.Loses input source) :
      Step c exhausted .take r (.borrow input input.batch.items none) { r with source }
  | borrows {r input todo b outputs} (h : r.outputs.takeSpare? = some (b, outputs)) :
      Step c exhausted (.borrow input todo none) r (.convert input todo b) { r with outputs }
  | findsNone {r input todo} (h : r.outputs.spare = []) :
      Step c exhausted (.borrow input todo none) r (.allocate input todo none) r
  | allocates {r input todo b outputs} (h : r.outputs.allocate = .ok (b, outputs)) :
      Step c exhausted (.allocate input todo none) r (.convert input todo b) { r with outputs }
  | starves {r input todo f} (h : r.outputs.allocate = .error f) :
      Step c exhausted (.allocate input todo none) r (.closeSink (.error f))
        { r with inputs := r.inputs.release input }
  | converts {r input a as out memory tally batch} (room : out.batch.isFull = false)
      (h : c.record? r.memory r.tally out.batch a = some (memory, tally, batch)) :
      Step c exhausted (.convert input (a :: as) out) r (.convert input as { out with batch })
        { r with memory, tally }
  | drops {r input out} (h : out.batch.items = []) :
      Step c exhausted (.convert input [] out) r (.giveBack input)
        { r with outputs := r.outputs.release out }
  | ends {r input out} : Step c exhausted (.convert input [] out) r (.send input [] out none) r
  | sends {r input out sink} (hopen : r.sink.ring.closed = false) (h : r.sink.Gains out sink) :
      Step c exhausted (.send input [] out none) r (.giveBack input) { r with sink }
  | refused {r input out} (h : r.sink.ring.closed = true) :
      Step c exhausted (.send input [] out none) r (.closeSink (.error .queueClosed))
        { r with inputs := r.inputs.release input, outputs := r.outputs.release out }
  | givesBack {r input} :
      Step c exhausted (.giveBack input) r .look { r with inputs := r.inputs.release input }
  | findsExhausted {r} (h : exhausted = true) : Step c exhausted .askExhausted r .askClosed r
  | findsLast {r} (h : r.source.ring.closed = true) : Step c exhausted .askClosed r .askEmpty r
  | findsEmpty {r} (h : r.source.contents = []) :
      Step c exhausted .askEmpty r (.closeSink (.ok ())) r
  | closes {r result} :
      Step c exhausted (.closeSink result) r (.abandonSource result)
        { r with sink := r.sink.close }
  | abandons {r result} :
      Step c exhausted (.abandonSource result) r (.left result)
        { r with source := r.source.abandon }

/-- How the calls of the stage came to their end does not change any more. -/
theorem Step.result [Inhabited β] {c : Conversion σ α β} {exhausted : Bool} {p q : Phase α β n}
    {r r' : Section σ α β n} (h : Step c exhausted p r q r') {result : Except Fault Unit}
    (hp : p.result? = some result) : q.result? = some result := by
  cases h with
  | rests | closes | abandons => exact hp
  | turns hfree =>
      rw [(empty_of_isFree hfree).2.2.2] at hp
      cases hp
  | _ => cases hp

/-- A worker whose stage failed has failed for good. -/
theorem Step.fault [Inhabited β] {c : Conversion σ α β} {exhausted : Bool} {p q : Phase α β n}
    {r r' : Section σ α β n} (h : Step c exhausted p r q r') {f : Fault} (hp : p.fault? = some f) :
    q.fault? = some f :=
  fault?_eq_some.mpr (h.result (fault?_eq_some.mp hp))

/-- All fits: the channels are lists, and nothing is in the spare batches. -/
structure Tidy (p : Phase α β n) (r : Section σ α β n) : Prop where
  source  : r.source.IsList
  inputs  : r.inputs.Clean
  sink    : r.sink.IsList
  outputs : r.outputs.Clean
  fits    : p.Fits

/-- A batch with nothing in it has room for the records of another. -/
theorem fits_convert (input : Buffer α n) {todo : List α} {b : Buffer β n}
    (hitems : b.batch.items = []) (htodo : todo.length ≤ n) : Fits (.convert input todo b) := by
  rw [Fits, Batch.size_of_items_nil hitems, Nat.zero_add]
  exact htodo

/-- **All fits after a step.** -/
theorem Step.tidy [Inhabited β] {c : Conversion σ α β} {exhausted : Bool} {p q : Phase α β n}
    {r r' : Section σ α β n} (h : Step c exhausted p r q r') (ht : p.Tidy r) : q.Tidy r' := by
  obtain ⟨hsource, hinputs, hsink, houtputs, hfits⟩ := ht
  cases h with
  | rests => exact ⟨hsource, hinputs, hsink, houtputs, hfits⟩
  | turns hp hq =>
      refine ⟨hsource, hinputs, hsink, houtputs, ?_⟩
      rcases hq with rfl | rfl <;> exact trivial
  | takes h =>
      refine ⟨h.isList, hinputs, hsink, houtputs, rfl, ?_⟩
      rw [Batch.length_items]
      exact Batch.size_le _
  | borrows h =>
      obtain ⟨hitems, hclean⟩ := houtputs.takeSpare? h
      exact ⟨hsource, hinputs, hsink, hclean, fits_convert _ hitems hfits.2⟩
  | findsNone => exact ⟨hsource, hinputs, hsink, houtputs, hfits⟩
  | allocates h =>
      obtain ⟨hitems, hclean⟩ := houtputs.allocate h
      exact ⟨hsource, hinputs, hsink, hclean, fits_convert _ hitems hfits.2⟩
  | starves => exact ⟨hsource, hinputs.release _, hsink, houtputs, trivial⟩
  | converts room h =>
      refine ⟨hsource, hinputs, hsink, houtputs, ?_⟩
      have hsize := Relay.size_of_record? room h
      simp only [Fits, List.length_cons] at hfits ⊢
      omega
  | drops => exact ⟨hsource, hinputs, hsink, houtputs.release _, trivial⟩
  | ends => exact ⟨hsource, hinputs, hsink, houtputs, rfl, rfl⟩
  | sends _ h => exact ⟨hsource, hinputs, h.isList, houtputs, trivial⟩
  | refused => exact ⟨hsource, hinputs.release _, hsink, houtputs.release _, trivial⟩
  | givesBack => exact ⟨hsource, hinputs.release _, hsink, houtputs, trivial⟩
  | closes => exact ⟨hsource, hinputs, hsink.close, houtputs, trivial⟩
  | abandons => exact ⟨hsource.abandon, hinputs, hsink, houtputs, trivial⟩
  | looks | findsClosed | findsRoom | findsExhausted | findsLast | findsEmpty =>
      exact ⟨hsource, hinputs, hsink, houtputs, trivial⟩

end Phase

namespace Worker

open Phase

theorem endCall_phase (w : Worker α β n) :
    w.endCall.phase = .look ∨ w.endCall.phase = .askExhausted := by
  unfold endCall
  split
  · exact .inl rfl
  · exact .inr rfl

/-- **A worker does nothing but what `Phase.Step` says**, if all fits. -/
theorem step_step [Inhabited β] (c : Conversion σ α β) (budget : Nat) (exhausted : Bool)
    (w : Worker α β n) (r : Section σ α β n) (hfits : w.phase.Fits) (hsource : r.source.IsList)
    (hsink : r.sink.IsList) :
    Step c exhausted w.phase r (w.step c budget exhausted r).1.phase
      (w.step c budget exhausted r).2 := by
  obtain ⟨p, handled⟩ := w
  cases p with
  | look =>
      simp only [step]
      split
      · exact .turns rfl (endCall_phase _)
      · split
        case isTrue hclosed => exact .findsClosed hclosed
        case isFalse => exact .looks
  | room =>
      simp only [step]
      split
      case isTrue => exact .turns rfl (endCall_phase _)
      case isFalse hfull => exact .findsRoom (hsink.length_lt (Bool.eq_false_iff.mpr hfull))
  | take =>
      simp only [step, Source.receive]
      rcases hsource.pop_cases with ⟨dry, hpop, -⟩ | ⟨input, source, hpop, hloses⟩
      · rw [hpop]
        exact .turns rfl (endCall_phase _)
      · rw [hpop]
        exact .takes hloses
  | borrow input todo full =>
      obtain ⟨rfl, -⟩ := hfits
      simp only [step]
      cases h : r.outputs.takeSpare? with
      | none => exact .findsNone (Pool.takeSpare?_none h)
      | some lent => exact .borrows h
  | allocate input todo full =>
      obtain ⟨rfl, -⟩ := hfits
      simp only [step]
      cases h : r.outputs.allocate with
      | error f => exact .starves h
      | ok lent => exact .allocates h
  | convert input todo out =>
      cases todo with
      | nil =>
          simp only [step]
          split
          case isTrue hempty => exact .drops (Batch.isEmpty_iff.mp hempty)
          case isFalse => exact .ends
      | cons a as =>
          have hfull : out.batch.isFull = false := by
            rw [← Bool.not_eq_true, Batch.isFull_iff]
            simp only [Fits, List.length_cons] at hfits
            omega
          obtain ⟨old, claimed, hclaim⟩ := Batch.claim?_of_not_isFull hfull
          simp only [step, hfull, Bool.false_eq_true, if_false]
          cases h : c.record? r.memory r.tally out.batch a with
          | none =>
              rw [Conversion.record?, hclaim] at h
              cases h
          | some done => exact .converts hfull h
  | send input todo out next =>
      obtain ⟨rfl, rfl⟩ := hfits
      simp only [step, Sink.send]
      rcases hsink.push_cases out with ⟨hclosed, hpush⟩ | ⟨-, hpush⟩ | ⟨sink, hpush, hopen, hgains⟩
      · rw [hpush]
        exact .refused hclosed
      · rw [hpush]
        exact .rests
      · rw [hpush]
        exact .sends hopen hgains
  | giveBack input => exact .givesBack
  | askExhausted =>
      simp only [step]
      split
      case isTrue h => exact .findsExhausted h
      case isFalse => exact .turns rfl (.inl rfl)
  | askClosed =>
      simp only [step]
      split
      case isTrue h => exact .findsLast h
      case isFalse => exact .turns rfl (.inl rfl)
  | askEmpty =>
      simp only [step]
      split
      case isTrue h => exact .findsEmpty (hsource.isEmpty_iff.mp h)
      case isFalse => exact .turns rfl (.inl rfl)
  | closeSink result => exact .closes
  | abandonSource result => exact .abandons
  | left result => exact .rests

end Worker

end Ais
