import Ais.Proofs.Payload.Reads

/-!
# Payloads — the first field that does not fit

Reads in a row go on as long as their fields lie among the valid bits, and fail at the first that
does not.  Which one that is depends on the number of valid bits and on where the fields stand, and
on nothing that was read (`Reader.Spans`).
-/

namespace Ais

open Bits

namespace Reader

variable {α β : Type}

/-- The first field that reaches past `bits` valid bits, by its place and its width. -/
def firstOut (bits : Nat) (fields : List (Nat × Nat)) : Option (Nat × Nat) :=
  fields.find? fun field => bits < field.1 + field.2

/-- From the bit `start` on the reads want these fields in order, and want nothing else. -/
def Spans (m : Read α) (start : Nat) (fields : List (Nat × Nat)) : Prop :=
  ∀ r : Reader, r.offset = start →
    match firstOut r.bits fields with
    | some field => (m.run r).1 = .error (.outOfBounds field.1 field.2 r.bits)
    | none       => ∃ a, (m.run r).1 = .ok a

/-- The read wants a field of `width` bits, and moves past it. -/
def Takes (m : Read α) (width : Nat) : Prop :=
  ∃ f : List Bool → α, ∀ r : Reader, m.run r = (r.answer width f, r.advance width)

theorem takes_unsigned {width : Nat} (hpos : 0 < width) (hwidth : width ≤ widest) :
    Takes (unsigned width) width :=
  ⟨_, fun r => by rw [unsigned_run, answerNumber_eq_answer hpos hwidth]⟩

theorem takes_signed {width : Nat} (hpos : 0 < width) (hwidth : width ≤ widest) :
    Takes (signed width) width :=
  ⟨_, fun r => by rw [signed_run, answerNumber_eq_answer hpos hwidth]⟩

theorem takes_bool : Takes bool 1 :=
  ⟨_, fun r => by rw [bool_run, answerNumber_eq_answer (by decide) (by decide)]⟩

theorem takes_text (width : Nat) : Takes (text width) width := ⟨_, fun r => r.text_run width⟩

variable {m : Read α} {f : α → Read β} {start width : Nat} {fields : List (Nat × Nat)}

theorem spans_pure (a : α) (start : Nat) : Spans (pure a : Read α) start [] := fun _ _ => ⟨a, rfl⟩

/-- A reader that moves without reaching the largest offset. -/
theorem offset_advance {r : Reader} (hr : r.offset = start) (hroom : start + width ≤ Limits.word) :
    (r.advance width).offset = start + width := by
  rw [advance, hr]
  exact Nat.min_eq_left hroom

/-- **One field after the other**: the first that does not fit is this one, or else the first of
those behind it. -/
theorem Takes.spans (hm : Takes m width) (hroom : start + width ≤ Limits.word)
    (hf : ∀ a, Spans (f a) (start + width) fields) :
    Spans (m >>= f) start ((start, width) :: fields) := by
  obtain ⟨g, hg⟩ := hm
  intro r hr
  rw [run_bind, hg, answer, hr, firstOut]
  by_cases hfits : start + width ≤ r.bits
  · rw [List.find?_cons_of_neg (by simpa using hfits), if_pos hfits]
    exact hf _ (r.advance width) (offset_advance hr hroom)
  · rw [List.find?_cons_of_pos (by simpa using hfits), if_neg hfits]

/-- What is skipped is wanted by no one. -/
theorem spans_skip {m : Read α} (hroom : start + width ≤ Limits.word)
    (hm : Spans m (start + width) fields) : Spans (skip width >>= fun _ => m) start fields := by
  intro r hr
  exact hm (r.advance width) (offset_advance hr hroom)

end Reader

namespace Payload

open Reader

variable {p : Payload}

/-- The type is read from the first six bits. -/
theorem type_run (h : 6 ≤ p.bits) : (unsigned 6).run p.reader =
    (.ok (UInt32.ofNat (value (p.reader.field 0 6))), p.reader.advance 6) := by
  have hroom : p.reader.offset + 6 ≤ p.reader.bits := by
    show 0 + 6 ≤ p.bits
    omega
  rw [unsigned_run, answerNumber_eq_answer (by decide) (by decide), answer, if_pos hroom]
  rfl

theorem messageType_eq (h : 6 ≤ p.bits) :
    p.messageType = .ok (UInt8.ofNat (value (p.reader.field 0 6))) := by
  rw [messageType, read, run_bind, type_run h, ← UInt32.toUInt8_ofNat']
  rfl

/-- Without six bits there is no type. -/
theorem read_of_short {α : Type} (h : ¬ 6 ≤ p.bits) (f : UInt32 → Read α) :
    p.read (unsigned 6 >>= f) = .error (.outOfBounds 0 6 p.bits) := by
  have hroom : ¬ p.reader.offset + 6 ≤ p.reader.bits := by
    show ¬ 0 + 6 ≤ p.bits
    omega
  rw [read, run_bind, unsigned_run, answerNumber_eq_answer (by decide) (by decide), answer,
    if_neg hroom]
  rfl

theorem messageType_eq_ok_iff {type : UInt8} :
    p.messageType = .ok type ↔ 6 ≤ p.bits ∧ UInt8.ofNat (value (p.reader.field 0 6)) = type := by
  by_cases h : 6 ≤ p.bits
  · rw [messageType_eq h, Except.ok.injEq]
    exact (and_iff_right h).symm
  · rw [messageType, read_of_short h]
    simp [h]

/-- Reads that are meant for some types only go on behind the type, or refuse it. -/
theorem read_typed {α : Type} {type : UInt8} (h : p.messageType = .ok type) (isType : UInt8 → Bool)
    (body : UInt32 → Read α) :
    ∃ t : UInt32, t.toUInt8 = type ∧
      p.read (do
        let t ← unsigned 6
        if !isType t.toUInt8 then throw (.unexpectedType t.toUInt8)
        body t) =
        if isType type then ((body t).run (p.reader.advance 6)).1
        else .error (.unexpectedType type) := by
  obtain ⟨hbits, rfl⟩ := messageType_eq_ok_iff.mp h
  refine ⟨_, UInt32.toUInt8_ofNat' _, ?_⟩
  rw [read, run_bind, type_run hbits]
  simp only [UInt32.toUInt8_ofNat']
  by_cases htype : isType (UInt8.ofNat (value (p.reader.field 0 6))) = true
  · simp [htype]
  · rw [if_neg htype]
    simp only [htype]
    rfl

end Payload

end Ais
