import Mathlib.Algebra.Group.Int.Defs
import Ais.Proofs.Payload.Armoured
import Ais.Proofs.Payload.Packed

/-!
# Payloads — what is read is what was packed

Bits are carried when they are armoured, the last character filled up with zero bits, and unpacked
into a payload (`Payload.carry`).  Then a reader faces them: they are the valid bits from its place
on (`Reader.Faces`).  A read takes bits for a value when it finds that value wherever a reader faces
these bits, whatever comes behind them, and moves past them (`Reader.Reads`).  So what is written
field by field is read field by field: reads one after the other take the bits of the first and then
those of the second (`Reads.bind`).

* `faces_carry`: readers of a payload that bits were carried into face them.
* `reads_unsigned`, `reads_signed`, `reads_bool`: what numbers are read as.
-/

namespace Ais

namespace Bits

/-- The number whose bits these are in two's complement: the first bit counts against the others. -/
def signedValue : List Bool → Int
  | []        => 0
  | b :: bits => value bits - b.toNat * 2 ^ bits.length

/-- The low `width` bits of a number in two's complement. -/
def ofInt (width : Nat) (i : Int) : List Bool := ofNat width (BitVec.ofInt width i).toNat

@[simp] theorem length_ofInt (width : Nat) (i : Int) : (ofInt width i).length = width :=
  length_ofNat ..

/-- A number is the value of its bits. -/
theorem value_bitVec {width : Nat} (n : BitVec width) : value (ofNat width n.toNat) = n.toNat :=
  value_ofNat n.isLt

/-- **The first bit is the sign**, and it is extended over whatever stands before it. -/
theorem signedValue_eq_toInt (bits : List Bool) :
    signedValue bits = (BitVec.ofNat bits.length (value bits)).toInt := by
  rw [BitVec.toInt_eq_msb_cond, BitVec.toNat_ofNat, Nat.mod_eq_of_lt (value_lt bits)]
  cases bits with
  | nil => rfl
  | cons b bits =>
      have hsign : (BitVec.ofNat (b :: bits).length (value (b :: bits))).msb = b := by
        rw [BitVec.msb_eq_getLsbD_last, BitVec.getLsbD_ofNat, List.length_cons,
          Nat.add_sub_cancel]
        have hfirst : (b :: bits)[0]? = some ((value (b :: bits)).testBit bits.length) :=
          getElem?_eq_testBit (Nat.zero_lt_succ _)
        rw [List.getElem?_cons_zero, Option.some.injEq] at hfirst
        rw [← hfirst]
        simp
      rw [hsign, signedValue, value, List.length_cons, Nat.pow_succ]
      cases b
      · simp
      · simp only [Bool.toNat_true, if_true]
        push_cast
        omega

theorem signedValue_bitVec {width : Nat} (n : BitVec width) :
    signedValue (ofNat width n.toNat) = n.toInt := by
  rw [signedValue_eq_toInt, length_ofNat, value_bitVec, BitVec.ofNat_toNat, BitVec.setWidth_eq]

/-- A number in range is what its bits say in two's complement. -/
theorem signedValue_ofInt {width : Nat} {i : Int} (hlow : -2 ^ width ≤ 2 * i)
    (hhigh : 2 * i < 2 ^ width) : signedValue (ofInt width i) = i := by
  rw [ofInt, signedValue_bitVec, BitVec.toInt_ofInt]
  apply Int.bmod_eq_of_le
  · push_cast
    omega
  · push_cast
    omega

end Bits

open Bits

namespace Reader

variable {r : Reader} {α β : Type}

/-! ### Bits ahead -/

/-- The valid bits from the reader's place on are `bits`. -/
structure Faces (r : Reader) (bits : List Bool) : Prop where
  bits_le : r.bits ≤ Limits.word
  bits_eq : r.bits = r.offset + bits.length
  field   : r.field r.offset bits.length = bits

theorem advance_advance (r : Reader) (first rest : Nat) :
    (r.advance first).advance rest = r.advance (first + rest) := by
  simp only [advance, mk.injEq, true_and]
  omega

namespace Faces

variable {bits rest : List Bool}

theorem advance_offset (h : r.Faces (bits ++ rest)) :
    (r.advance bits.length).offset = r.offset + bits.length := by
  have hle := h.bits_le
  have heq := h.bits_eq
  rw [List.length_append] at heq
  rw [Reader.advance]
  exact Nat.min_eq_left (by omega)

/-- The first bits ahead are a field. -/
theorem field_eq (h : r.Faces (bits ++ rest)) : r.field r.offset bits.length = bits := by
  have hfield := h.field
  rw [List.length_append, field_add] at hfield
  exact (List.append_inj hfield (length_field ..)).1

/-- Past the first bits the reader faces the others. -/
theorem advance (h : r.Faces (bits ++ rest)) : (r.advance bits.length).Faces rest := by
  have hfield := h.field
  rw [List.length_append, field_add] at hfield
  refine ⟨h.bits_le, ?_, ?_⟩
  · rw [h.advance_offset, Nat.add_assoc, ← List.length_append]
    exact h.bits_eq
  · rw [h.advance_offset]
    exact (List.append_inj hfield (length_field ..)).2

theorem append_nil (h : r.Faces bits) : r.Faces (bits ++ []) := by rwa [List.append_nil]

theorem advance_zero (h : r.Faces rest) : r.advance 0 = r := by
  have hle := h.bits_le
  have heq := h.bits_eq
  have hoffset : min (r.offset + 0) Limits.word = r.offset := Nat.min_eq_left (by omega)
  rw [Reader.advance, hoffset]

/-- A read that is a function of its field finds it in the first bits ahead. -/
theorem answer_eq (h : r.Faces (bits ++ rest)) (f : List Bool → α) :
    r.answer bits.length f = .ok (f bits) := by
  have heq := h.bits_eq
  rw [List.length_append] at heq
  rw [answer, if_pos (by omega), h.field_eq]

end Faces

/-! ### Reads of bits -/

/-- Wherever a reader faces `bits`, the read finds `a` and moves past them. -/
def Reads (m : Read α) (bits : List Bool) (a : α) : Prop :=
  ∀ (r : Reader) (rest : List Bool), r.Faces (bits ++ rest) → m.run r = (.ok a, r.advance bits.length)

theorem reads_pure {a b : α} (h : a = b) : Reads (pure a) [] b := by
  intro r rest hr
  subst h
  rw [List.length_nil, Faces.advance_zero hr]
  rfl

/-- **Reads one after the other** take the bits of the first, and then those of the second. -/
theorem Reads.bind {m : Read α} {f : α → Read β} {first rest : List Bool} {a : α} {b : β}
    (hm : Reads m first a) (hf : Reads (f a) rest b) : Reads (m >>= f) (first ++ rest) b := by
  intro r behind hr
  rw [List.append_assoc] at hr
  rw [run_bind, hm r _ hr]
  simp only
  rw [hf _ _ hr.advance, advance_advance, List.length_append]

/-- What is found may be turned into something else. -/
theorem Reads.map {m : Read α} {bits : List Bool} {a : α} {b : β} (hm : Reads m bits a) (f : α → β)
    (h : f a = b) : Reads (m >>= fun x => pure (f x)) bits b := by
  have hread := hm.bind (f := fun x => pure (f x)) (reads_pure h)
  rwa [List.append_nil] at hread

/-- A number whose width is allowed is read if its bits are there. -/
theorem answerNumber_eq_answer {width : Nat} (hpos : 0 < width) (hwidth : width ≤ widest)
    (r : Reader) (f : List Bool → α) : r.answerNumber width f = r.answer width f :=
  if_neg (by omega)

variable {bits : List Bool} {width : Nat}

theorem reads_unsigned (bits : List Bool) (hpos : 0 < bits.length) (hwidth : bits.length ≤ widest) :
    Reads (unsigned bits.length) bits (UInt32.ofNat (value bits)) := by
  intro r rest hr
  rw [unsigned_run, answerNumber_eq_answer hpos hwidth, hr.answer_eq]

/-- Sign extension does not change a number. -/
theorem ofBitVec_signExtend (hwidth : bits.length ≤ 32) :
    Int32.ofBitVec ((BitVec.ofNat bits.length (value bits)).signExtend 32) =
      Int32.ofInt (signedValue bits) := by
  rw [signedValue_eq_toInt, ← BitVec.toInt_signExtend_of_le hwidth, ← Int32.ofBitVec_ofInt,
    BitVec.ofInt_toInt]

theorem toInt_ofInt_signedValue (hwidth : bits.length ≤ 32) :
    (Int32.ofInt (signedValue bits)).toInt = signedValue bits := by
  rw [← ofBitVec_signExtend hwidth, Int32.toInt_ofBitVec, BitVec.toInt_signExtend_of_le hwidth,
    signedValue_eq_toInt]

theorem reads_signed (bits : List Bool) (hpos : 0 < bits.length) (hwidth : bits.length ≤ widest) :
    Reads (signed bits.length) bits (Int32.ofInt (signedValue bits)) := by
  intro r rest hr
  rw [signed_run, answerNumber_eq_answer hpos hwidth, hr.answer_eq, ofBitVec_signExtend hwidth]

/-- A number that fits into its width is read as it is. -/
theorem reads_ofNat {n : Nat} (hpos : 0 < width) (hwidth : width ≤ widest) (hn : n < 2 ^ width) :
    Reads (unsigned width) (ofNat width n) (UInt32.ofNat n) := by
  have hread := reads_unsigned (ofNat width n) (by simpa using hpos) (by simpa using hwidth)
  rwa [length_ofNat, value_ofNat hn] at hread

theorem reads_ofInt {i : Int} (hpos : 0 < width) (hwidth : width ≤ widest)
    (hlow : -2 ^ width ≤ 2 * i) (hhigh : 2 * i < 2 ^ width) :
    Reads (signed width) (ofInt width i) (Int32.ofInt i) := by
  have hread := reads_signed (ofInt width i) (by simpa using hpos) (by simpa using hwidth)
  rwa [length_ofInt, signedValue_ofInt hlow hhigh] at hread

theorem reads_bool (b : Bool) : Reads bool [b] b := by
  intro r rest hr
  rw [bool_run, answerNumber_eq_answer (by decide) (by decide), ← List.length_singleton (a := b),
    hr.answer_eq]
  cases b <;> rfl

theorem reads_skip (bits : List Bool) : Reads (skip bits.length) bits () := fun _ _ _ => rfl

/-- What was read stands at the reader's place. -/
theorem Reads.run_fst {m : Read α} {a : α} {rest : List Bool} (h : Reads m bits a)
    (hr : r.Faces (bits ++ rest)) : (m.run r).1 = .ok a := by
  rw [h r rest hr]

theorem Reads.run_fst_self {m : Read α} {a : α} (h : Reads m bits a) (hr : r.Faces bits) :
    (m.run r).1 = .ok a :=
  h.run_fst hr.append_nil

end Reader

/-! ### Carried bits -/

namespace Payload

/-- Bits as they arrive in a payload: armoured, the last character filled up, and unpacked. -/
def carry (p : Payload) (bits : List Bool) : Payload × Nat :=
  p.dearmourBits (armour bits) (UInt8.ofNat (padding bits))

variable {bits : List Bool}

/-- The bits of the text that a payload can be filled from. -/
def capacity : Nat := 6 * Limits.armouredChars

theorem toNat_padding (bits : List Bool) : (UInt8.ofNat (padding bits)).toNat = padding bits := by
  have hlt := padding_lt bits
  rw [UInt8.toNat_ofNat']
  exact Nat.mod_eq_of_lt (by omega)

/-- Bits that are carried into a payload are its valid bits. -/
theorem carry_eq (p : Payload) (h : bits.length ≤ capacity) :
    (p.carry bits).2 = bits.length ∧ (p.carry bits).1.bits = bits.length ∧
      ∀ i < bits.length, bitAt (p.carry bits).1.bytes i = bits.getD i false := by
  have hpadding := padding_lt bits
  have hlength := length_armour bits
  have hcapacity : capacity = 6 * Limits.armouredChars := rfl
  by_cases hnil : bits = []
  · -- no bits have no text, which is refused
    subst hnil
    have hempty : ¬ Fills (armour []) (UInt8.ofNat (padding [])) := by decide
    obtain ⟨e, he, -⟩ := dearmour_refused hempty p
    rw [carry, dearmourBits, he]
    exact ⟨rfl, rfl, by simp⟩
  · have hpos := List.length_pos_iff.mpr hnil
    have hfill := toNat_padding bits
    have hlimit : Limits.fillBits = 5 := rfl
    have hfills : Fills (armour bits) (UInt8.ofNat (padding bits)) :=
      ⟨by omega, by omega, by omega⟩
    obtain ⟨q, hq, hbits, hbytes⟩ := hfills.dearmour_eq p
    have hsize : 6 * (armour bits).length - (UInt8.ofNat (padding bits)).toNat = bits.length := by
      omega
    rw [hsize] at hq hbits
    rw [carry, dearmourBits, hq]
    refine ⟨rfl, hbits, fun i _ => ?_⟩
    show bitAt q.bytes i = _
    rw [hbytes, bitAt_pack, ofText_armour, getD_append_zeros]

/-- **Readers face the bits that were carried.** -/
theorem faces_carry (p : Payload) (lead rest : List Bool) (h : (lead ++ rest).length ≤ capacity) :
    ((p.carry (lead ++ rest)).1.readerAt lead.length).Faces rest := by
  obtain ⟨-, hbits, hbit⟩ := p.carry_eq h
  refine ⟨?_, ?_, ?_⟩
  · show (p.carry (lead ++ rest)).1.bits ≤ Limits.word
    rw [hbits]
    exact Nat.le_trans h (by decide)
  · show (p.carry (lead ++ rest)).1.bits = _
    rw [hbits, List.length_append]
    rfl
  · apply List.ext_getElem (Reader.length_field ..)
    intro i _ hi
    have hplace := hbit (lead.length + i) (by rw [List.length_append]; omega)
    rw [List.getD_append_right _ _ _ _ (by omega), Nat.add_sub_cancel_left,
      List.getD_eq_getElem _ _ hi] at hplace
    simpa [Reader.field, readerAt] using hplace

end Payload

end Ais
