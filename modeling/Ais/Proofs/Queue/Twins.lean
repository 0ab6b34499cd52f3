import Mathlib.Data.List.Forall2
import Ais.Proofs.Queue.Closing

/-!
# Queue — two queues side by side

Two calls end alike if they fail alike or give related answers, and leave related states behind
(`EndAlike`).  Of queues that `S` relates, puts of related values have the same fate, and takes end
alike, with related values (`Sink.Agrees`, `Source.Agrees`).

Two channels are twins if they hold related values in the same order, have as much room, and have
been let go of by the same sides (`Channel.Twin`).  Where in its ring a channel keeps them makes no
difference.
-/

namespace Ais

/-- The calls end in related states, with the same failure or with related answers. -/
inductive EndAlike {σ ε β : Type} (A : σ → σ → Prop) (R : β → β → Prop) :
    σ × Except ε β → σ × Except ε β → Prop where
  | failed {s s' : σ} (h : A s s') (e : ε) : EndAlike A R (s, .error e) (s', .error e)
  | answered {s s' : σ} {b b' : β} (h : A s s') (hb : R b b') : EndAlike A R (s, .ok b) (s', .ok b')

namespace EndAlike

variable {σ τ ε β γ : Type} {A : σ → σ → Prop} {B : τ → τ → Prop} {R : β → β → Prop}
  {x x' : σ × Except ε β}

theorem state (h : EndAlike A R x x') : A x.1 x'.1 := by
  cases h <;> assumption

/-- What is answered is the same where equal answers alone are related. -/
theorem answer (h : EndAlike A Eq x x') : x.2 = x'.2 := by
  cases h with
  | failed _ e => rfl
  | answered _ hb => rw [hb]

/-- What shows of the answers is the same where related answers show the same. -/
theorem map_answer (h : EndAlike A R x x') {f : β → γ} (hf : ∀ {b b'}, R b b' → f b = f b') :
    x.2.map f = x'.2.map f := by
  cases h with
  | failed _ e => rfl
  | answered _ hb => exact congrArg Except.ok (hf hb)

/-- Something related is answered, or nothing. -/
theorem forall₂_answer (h : EndAlike A R x x') :
    List.Forall₂ R x.2.toOption.toList x'.2.toOption.toList := by
  cases h with
  | failed _ e => exact .nil
  | answered _ hb => exact .cons hb .nil

/-- Calls that end alike do so with something done to the states as well. -/
theorem mapState (h : EndAlike A R x x') (f f' : σ → τ)
    (hf : ∀ {s s'}, A s s' → B (f s) (f' s')) :
    EndAlike B R (f x.1, x.2) (f' x'.1, x'.2) := by
  cases h with
  | failed hs e => exact .failed (hf hs) e
  | answered hs hb => exact .answered (hf hs) hb

/-- Calls that end alike do so with something done to the answers as well. -/
theorem map (h : EndAlike A Eq x x') (f : β → γ) :
    EndAlike A Eq (x.1, x.2.map f) (x'.1, x'.2.map f) := by
  cases h with
  | failed hs e => exact .failed hs e
  | answered hs hb => exact .answered hs (congrArg f hb)

end EndAlike

variable {Q : Type} {α : Type}

/-- Puts to related sinks have the same fate. -/
structure Sink.Agrees [Sink Q α] (R : α → α → Prop) (S : Q → Q → Prop) : Prop where
  isClosed : ∀ {q q'}, S q q' → Sink.isClosed q = Sink.isClosed q'
  isFull   : ∀ {q q'}, S q q' → Sink.isFull q = Sink.isFull q'
  send     : ∀ {q q' v v'}, S q q' → R v v' → ∃ k k', S k k' ∧
    (Sink.send q v = (k, .ok ()) ∧ Sink.send q' v' = (k', .ok ()) ∨
      Sink.send q v = (k, .error (.full v)) ∧ Sink.send q' v' = (k', .error (.full v')) ∨
      Sink.send q v = (k, .error (.closed v)) ∧ Sink.send q' v' = (k', .error (.closed v')))

/-- Takes from related sources end alike. -/
structure Source.Agrees [Source Q α] (R : α → α → Prop) (S : Q → Q → Prop) : Prop where
  receive : ∀ {q q'}, S q q' → EndAlike S R (Source.receive q) (Source.receive q')

namespace Channel

variable {R : α → α → Prop} {c c' : Channel α}

/-- The channels hold related values in the same order, and have as much room; the same sides have
let go of them. -/
structure Twin (R : α → α → Prop) (c c' : Channel α) : Prop where
  left      : c.IsList
  right     : c'.IsList
  contents  : List.Forall₂ R c.contents c'.contents
  capacity  : c.ring.capacity = c'.ring.capacity
  closed    : c.ring.closed = c'.ring.closed
  abandoned : c.abandoned = c'.abandoned

namespace Twin

/-- Where nothing is in a channel, nothing is out of sight. -/
theorem of_nil (h : c.IsList) (hnil : c.contents = []) : c.Twin R c :=
  ⟨h, h, by rw [hnil]; exact .nil, rfl, rfl, rfl⟩

theorem isFull (h : c.Twin R c') : c.ring.isFull = c'.ring.isFull := by
  rw [Bool.eq_iff_iff, h.left.isFull_iff, h.right.isFull_iff, h.contents.length_eq, h.capacity]

theorem push (h : c.Twin R c') {v v' : α} (hv : R v v') : ∃ d d', d.Twin R d' ∧
    (c.push v = (d, .ok ()) ∧ c'.push v' = (d', .ok ()) ∨
      c.push v = (d, .error (.full v)) ∧ c'.push v' = (d', .error (.full v')) ∨
      c.push v = (d, .error (.closed v)) ∧ c'.push v' = (d', .error (.closed v'))) := by
  have hclosed' := h.closed
  have hfull' := h.isFull
  cases hclosed : c.ring.closed with
  | true =>
      rw [hclosed] at hclosed'
      exact ⟨c, c', h, .inr (.inr ⟨push_of_closed hclosed v, push_of_closed hclosed'.symm v'⟩)⟩
  | false =>
      rw [hclosed] at hclosed'
      cases hfull : c.ring.isFull with
      | true =>
          rw [hfull] at hfull'
          exact ⟨c, c', h, .inr (.inl ⟨push_of_full hclosed hfull v,
            push_of_full hclosed'.symm hfull'.symm v'⟩)⟩
      | false =>
          rw [hfull] at hfull'
          obtain ⟨d, hpush, hgains⟩ := h.left.push_of_room hclosed hfull v
          obtain ⟨d', hpush', hgains'⟩ := h.right.push_of_room hclosed'.symm hfull'.symm v'
          refine ⟨d, d', ⟨hgains.isList, hgains'.isList, ?_, ?_, ?_, ?_⟩, .inl ⟨hpush, hpush'⟩⟩
          · rw [hgains.contents, hgains'.contents]
            exact List.rel_append h.contents (.cons hv .nil)
          · rw [hgains.capacity, hgains'.capacity, h.capacity]
          · rw [hgains.closed, hgains'.closed, h.closed]
          · rw [hgains.abandoned, hgains'.abandoned, h.abandoned]

theorem pop (h : c.Twin R c') : EndAlike (Twin R) R c.pop c'.pop := by
  have habandoned' := h.abandoned
  cases habandoned : c.abandoned with
  | true =>
      rw [habandoned] at habandoned'
      rw [pop_of_abandoned habandoned, pop_of_abandoned habandoned'.symm]
      exact .failed h _
  | false =>
      rw [habandoned] at habandoned'
      have hcontents := h.contents
      cases hleft : c.contents with
      | nil =>
          rw [hleft, List.forall₂_nil_left_iff] at hcontents
          rw [h.left.pop_of_nil habandoned hleft, h.right.pop_of_nil habandoned'.symm hcontents,
            h.closed]
          exact .failed h _
      | cons v vs =>
          rw [hleft, List.forall₂_cons_left_iff] at hcontents
          obtain ⟨v', vs', hv, hvs, hright⟩ := hcontents
          obtain ⟨d, hpop, hloses⟩ := h.left.pop_of_cons habandoned hleft
          obtain ⟨d', hpop', hloses'⟩ := h.right.pop_of_cons habandoned'.symm hright
          rw [hpop, hpop']
          refine .answered ⟨hloses.isList, hloses'.isList, ?_, ?_, ?_, ?_⟩ hv
          · obtain ⟨-, rfl⟩ := List.cons.inj (hleft.symm.trans hloses.contents)
            obtain ⟨-, rfl⟩ := List.cons.inj (hright.symm.trans hloses'.contents)
            exact hvs
          · rw [hloses.capacity, hloses'.capacity, h.capacity]
          · rw [hloses.closed, hloses'.closed, h.closed]
          · rw [hloses.abandoned, hloses'.abandoned, h.abandoned]

end Twin

/-- Twin channels take and refuse the same. -/
theorem sink_agrees (R : α → α → Prop) : Sink.Agrees R (Channel.Twin R) where
  isClosed h := h.closed
  isFull h   := h.isFull
  send h hv  := h.push hv

/-- Twin channels give the same. -/
theorem source_agrees (R : α → α → Prop) : Source.Agrees R (Channel.Twin R) := ⟨fun h => h.pop⟩

end Channel

end Ais
