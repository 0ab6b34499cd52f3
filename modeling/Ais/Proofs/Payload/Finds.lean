import Ais.Proofs.Payload.Spans
import Ais.Proofs.Payload.Text

/-!
# Payloads — what reads can find

A read finds things of a kind when whatever it finds, wherever a reader stands, is of that kind
(`Reader.Finds`).  A number is as small as its width says, and a text is canonical and no longer than
its field.  What is put together from reads is of the kind that its parts make (`Finds.bind`), and
where only a later part matters the earlier ones may find anything (`finds_last`).
-/

namespace Ais.Reader

open Bits

variable {α β : Type} {P : α → Prop} {Q : β → Prop} {m : Read α} {f : α → Read β}

/-- What one read after the other finds, the first has made possible. -/
theorem run_bind_eq_ok_iff {r : Reader} {b : β} : ((m >>= f).run r).1 = .ok b ↔
    ∃ a, (m.run r).1 = .ok a ∧ ((f a).run (m.run r).2).1 = .ok b := by
  rw [run_bind]
  rcases m.run r with ⟨e | a, s⟩
  · simp
  · simp

/-- Whatever the read finds has the property. -/
def Finds (m : Read α) (P : α → Prop) : Prop :=
  ∀ (r : Reader) (a : α), (m.run r).1 = .ok a → P a

theorem finds_pure {a : α} (h : P a) : Finds (pure a) P := by
  intro r b hb
  obtain rfl : a = b := Except.ok.inj hb
  exact h

theorem finds_throw {e : Fault} : Finds (throw e) P := by
  intro r a ha
  cases ha

/-- **Reads one after the other**: the later ones may count on what the earlier find. -/
theorem Finds.bind (hm : Finds m P) (hf : ∀ a, P a → Finds (f a) Q) : Finds (m >>= f) Q := by
  intro r b hb
  obtain ⟨a, ha, hrest⟩ := run_bind_eq_ok_iff.mp hb
  exact hf a (hm r a ha) _ b hrest

theorem finds_last (hf : ∀ a, Finds (f a) Q) : Finds (m >>= f) Q := by
  intro r b hb
  obtain ⟨a, -, hrest⟩ := run_bind_eq_ok_iff.mp hb
  exact hf a _ b hrest

variable {width : Nat}

/-- A number is less than its width allows. -/
theorem finds_unsigned (width : Nat) : Finds (unsigned width) fun n => n.toNat < 2 ^ width := by
  intro r n hn
  rw [unsigned_run] at hn
  obtain ⟨-, -, -, rfl⟩ := answerNumber_eq_ok hn
  have hlt := value_lt (r.field r.offset width)
  rw [length_field] at hlt
  rw [UInt32.toNat_ofNat']
  exact Nat.lt_of_le_of_lt (Nat.mod_le ..) hlt

/-- A text is canonical, and has no more letters than the field has room for. -/
theorem finds_text (width : Nat) :
    Finds (text width) fun t => SixBit.Canonical t ∧ t.length ≤ width / 6 := by
  intro r t ht
  have hanswer := ht
  rw [text_run] at hanswer
  simp only at hanswer
  obtain ⟨hroom, -⟩ := answer_eq_ok hanswer
  rw [r.text_codes hroom, Except.ok.injEq] at ht
  subst ht
  refine ⟨SixBit.canonical_trimmed (r.codes_lt r.offset width), ?_⟩
  rw [String.length_ofList, ← r.length_codes r.offset width]
  refine (SixBit.length_trimmed_le _).trans ?_
  rw [List.length_map]
  exact (List.takeWhile_prefix _).length_le

end Ais.Reader
