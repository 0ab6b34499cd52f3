import Ais.Proofs.Batch
import Ais.Proofs.Queue.Ends
import Ais.Queue.Channel

/-!
# Stage — one delivery

What comes out of one round of a stage is delivered at once: an empty batch goes back to its pool,
and any other to the sink in one put (`Stage.Delivers`).  A queue that is open and not full takes
what it is given (`Sink.Willing`), so the put succeeds where the sink was asked before and nobody
else puts into it (`Stage.delivers`).
-/

namespace Ais

/-- What is open and not full takes the next value, whatever it is. -/
def Sink.Willing (Q : Type) {α : Type} [Sink Q α] : Prop :=
  ∀ {q : Q}, Sink.isClosed q = false → Sink.isFull q = false →
    ∀ v, ∃ q', Sink.send q v = (q', .ok ())

variable {α : Type}

theorem Ring.willing : Sink.Willing (Ring α) := by
  intro r hopen room v
  have hopen : r.closed = false := hopen
  have room : r.isFull = false := room
  have hpush : r.push v = (r.put v, .ok ()) := by
    simp only [Ring.push, hopen, room, Bool.false_eq_true, if_false]
  exact ⟨r.put v, hpush⟩

theorem Channel.willing : Sink.Willing (Channel α) := by
  intro c hopen room v
  obtain ⟨ring, hpush⟩ := Ring.willing (q := c.ring) hopen room v
  have hpush : c.ring.push v = (ring, .ok ()) := hpush
  have hsend : c.push v = ({ c with ring }, .ok ()) := by simp only [Channel.push, hpush]
  exact ⟨{ c with ring }, hsend⟩

namespace Stage

variable {Q : Type} {n : Nat} [Sink Q (Buffer α n)] {q q' : Q} {pool left : Pool α n}
  {b : Buffer α n} {sent : List (Buffer α n)}

theorem map_ne_stalled {γ δ : Type} {answer : Except Halt γ} (h : answer ≠ .error .stalled)
    (f : γ → δ) : answer.map f ≠ .error .stalled := by
  cases answer with
  | ok a =>
      intro hstalled
      cases hstalled
  | error stop => exact fun hstalled => h (congrArg _ (Except.error.inj hstalled))

/-- A batch is delivered: back to its pool if nothing is in it, else to the sink, which takes it. -/
inductive Delivers (q : Q) (pool : Pool α n) (b : Buffer α n) :
    List (Buffer α n) → Q → Pool α n → Prop where
  | nothing (empty : b.batch.isEmpty = true) : Delivers q pool b [] q (pool.release b)
  | taken {q' : Q} (filled : b.batch.isEmpty = false) (put : Sink.send q b = (q', .ok ())) :
      Delivers q pool b [b] q' pool

/-- **What has room takes the batch.** -/
theorem delivers (willing : Sink.Willing Q) (hopen : Sink.isClosed q = false)
    (room : Sink.isFull q = false) (pool : Pool α n) (b : Buffer α n) :
    ∃ sent q' left, Delivers q pool b sent q' left := by
  cases hempty : b.batch.isEmpty with
  | true => exact ⟨[], q, pool.release b, .nothing hempty⟩
  | false =>
      obtain ⟨q', hsend⟩ := willing hopen room b
      exact ⟨[b], q', pool, .taken hempty hsend⟩

namespace Delivers

/-- There is one put at most. -/
theorem length_le (h : Delivers q pool b sent q' left) : sent.length ≤ 1 := by
  cases h with
  | nothing => exact Nat.zero_le 1
  | taken => exact Nat.le_refl 1

theorem clean (h : Delivers q pool b sent q' left) (hclean : pool.Clean) : left.Clean := by
  cases h with
  | nothing => exact hclean.release b
  | taken => exact hclean

end Delivers

end Stage

end Ais
