import Mathlib.Algebra.GroupWithZero.Nat
import Ais.Proofs.Payload.Reads

/-!
# Payloads — numbers one after the other

A number of up to 32 bits stands in a payload most significant bit first, as it is or in two's
complement (`Number`).  Numbers that are written one after the other, behind any lead of bits, are
read back in their order by their widths alone (`numbers_round_trip`): neither the place of a number
in its bytes, nor the size of the window it is cut out of, nor what stands around it shows.
-/

namespace Ais

open Bits

/-- A number among bits: how many they are, whether the first is a sign, and which they are. -/
structure Number where
  width    : Nat
  isSigned : Bool
  raw      : BitVec width
  pos      : 0 < width
  le       : width ≤ Reader.widest

namespace Number

def value (n : Number) : Int := if n.isSigned then n.raw.toInt else n.raw.toNat

/-- The bits, the most significant first. -/
def bits (n : Number) : List Bool := ofNat n.width n.raw.toNat

/-- What must be known to read the number. -/
def kind (n : Number) : Bool × Nat := (n.isSigned, n.width)

@[simp] theorem length_bits (n : Number) : n.bits.length = n.width := length_ofNat ..

theorem length_flatMap_bits (ns : List Number) :
    (ns.flatMap bits).length = (ns.map (·.width)).sum := by
  rw [List.length_flatMap, funext length_bits]

end Number

namespace Reader

/-- A number of `width` bits, with a sign or without. -/
def number (isSigned : Bool) (width : Nat) : Read Int :=
  if isSigned then do return (← signed width).toInt
  else do return (← unsigned width).toNat

/-- Numbers one after the other. -/
def numbers (kinds : List (Bool × Nat)) : Read (List Int) :=
  kinds.mapM fun (isSigned, width) => number isSigned width

/-- A number is read as what it is. -/
theorem reads_number (n : Number) : Reads (number n.isSigned n.width) n.bits n.value := by
  have hpos : 0 < n.bits.length := by simpa using n.pos
  have hle : n.bits.length ≤ widest := by simpa using n.le
  rw [number, Number.value]
  cases n.isSigned
  · have hread := reads_ofNat n.pos n.le n.raw.isLt
    have hvalue : (UInt32.ofNat n.raw.toNat).toNat = n.raw.toNat := by
      rw [UInt32.toNat_ofNat']
      exact Nat.mod_eq_of_lt (Nat.lt_of_lt_of_le n.raw.isLt (Nat.pow_le_pow_right (by decide) n.le))
    exact hread.map _ (congrArg Nat.cast hvalue)
  · have hread := reads_signed n.bits hpos hle
    rw [n.length_bits] at hread
    have hvalue : (Int32.ofInt (signedValue n.bits)).toInt = n.raw.toInt := by
      rw [toInt_ofInt_signedValue hle, Number.bits, signedValue_bitVec]
    exact hread.map _ hvalue

/-- Numbers in a row are read in their order. -/
theorem reads_numbers (ns : List Number) :
    Reads (numbers (ns.map Number.kind)) (ns.flatMap Number.bits) (ns.map Number.value) := by
  induction ns with
  | nil => exact reads_pure rfl
  | cons n ns ih =>
      rw [List.map_cons, List.map_cons, List.flatMap_cons, numbers, List.mapM_cons]
      exact (reads_number n).bind (ih.map (n.value :: ·) rfl)

/-- A number that lies among the valid bits is found, and it is the value of its bits. -/
theorem unsigned_value (r : Reader) {width : Nat} (hpos : 0 < width) (hwidth : width ≤ widest)
    (hroom : r.offset + width ≤ r.bits) :
    ∃ n, ((unsigned width).run r).1 = .ok n ∧ n.toNat = value (r.field r.offset width) := by
  refine ⟨_, by rw [unsigned_run, answerNumber_eq_answer hpos hwidth, answer, if_pos hroom], ?_⟩
  have hlt := value_lt (r.field r.offset width)
  rw [length_field] at hlt
  rw [UInt32.toNat_ofNat']
  exact Nat.mod_eq_of_lt (Nat.lt_of_lt_of_le hlt (Nat.pow_le_pow_right (by decide) hwidth))

theorem signed_value (r : Reader) {width : Nat} (hpos : 0 < width) (hwidth : width ≤ widest)
    (hroom : r.offset + width ≤ r.bits) :
    ∃ i, ((signed width).run r).1 = .ok i ∧ i.toInt = signedValue (r.field r.offset width) := by
  refine ⟨_, by rw [signed_run, answerNumber_eq_answer hpos hwidth, answer, if_pos hroom], ?_⟩
  have hlength : (r.field r.offset width).length = width := length_field ..
  rw [← toInt_ofInt_signedValue (by rw [hlength]; exact hwidth),
    ← ofBitVec_signExtend (by rw [hlength]; exact hwidth), hlength]

/-- **Numbers are read back as they were written**, in their order and behind any lead of bits; and
wherever a number is read, it is the value of the bits that stand there, the first of them being the
sign of a signed one. -/
theorem numbers_round_trip (p : Payload) (lead : List Bool) (ns : List Number)
    (hroom : lead.length + (ns.map (·.width)).sum ≤ Payload.capacity) :
    (let q := p.carry (lead ++ ns.flatMap Number.bits)
     q.2 = lead.length + (ns.map (·.width)).sum ∧
      ((numbers (ns.map Number.kind)).run (q.1.readerAt lead.length)).1 =
        .ok (ns.map Number.value)) ∧
    ∀ (q : Payload) (start width : Nat), 0 < width → width ≤ widest → start + width ≤ q.bits →
      let bits := (List.range width).map fun j => bitAt q.bytes (start + j)
      ∃ n i, ((unsigned width).run (q.readerAt start)).1 = .ok n ∧ n.toNat = value bits ∧
        ((signed width).run (q.readerAt start)).1 = .ok i ∧ i.toInt = signedValue bits := by
  have hlength : (lead ++ ns.flatMap Number.bits).length = lead.length + (ns.map (·.width)).sum := by
    rw [List.length_append, Number.length_flatMap_bits]
  refine ⟨⟨?_, ?_⟩, ?_⟩
  · rw [(p.carry_eq (by rwa [hlength])).1, hlength]
  · have hfaces := p.faces_carry lead (ns.flatMap Number.bits) (by rwa [hlength])
    exact (reads_numbers ns).run_fst_self hfaces
  · intro q start width hpos hwidth hroom
    obtain ⟨n, hn, hvalue⟩ := (q.readerAt start).unsigned_value hpos hwidth hroom
    obtain ⟨i, hi, hsigned⟩ := (q.readerAt start).signed_value hpos hwidth hroom
    exact ⟨n, i, hn, hvalue, hi, hsigned⟩

/-- Three numbers behind three bits: one over five bytes, one below zero, and one bit. -/
theorem numbers_round_trip_three :
    let ns : List Number :=
      [⟨32, false, 0xDEADBEEF, by decide, by decide⟩, ⟨28, true, -134217728, by decide, by decide⟩,
        ⟨1, true, 1, by decide, by decide⟩]
    let q := Payload.empty.carry ([true, false, true] ++ ns.flatMap Number.bits)
    q.2 = 64 ∧
      ((numbers [(false, 32), (true, 28), (true, 1)]).run (q.1.readerAt 3)).1 =
        .ok [3735928559, -134217728, -1] := by
  intro ns q
  have hround := (numbers_round_trip .empty [true, false, true] ns (by decide)).1
  exact ⟨hround.1, hround.2.trans (congrArg Except.ok (by decide))⟩

end Reader

end Ais
