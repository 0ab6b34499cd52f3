import Mathlib.Algebra.Group.Nat.Defs
import Mathlib.Data.List.GetD
import Ais.Bytes.Ascii

/-!
# Payloads — bits in order

The bits of a number, of a byte and of bytes as lists, the most significant first: what packed bytes
say when they are read from the left.

* `ofNat_add`: the bits of a number fall apart into high and low ones.
* `ofNat_congr`: they are its low bits, and nothing else of it.
* `ofNat_value`: a list of bits is the bits of its value.
* `bitAt_eq`, `eq_of_bitAt`: a bit of bytes is found in its byte, and bytes are what their bits are.
-/

namespace Ais.Bits

/-- The low `width` bits of `n`. -/
def ofNat : (width : Nat) → (n : Nat) → List Bool
  | 0, _         => []
  | width + 1, n => n.testBit width :: ofNat width n

/-- The eight bits of a byte. -/
def ofByte (b : UInt8) : List Bool := ofNat 8 b.toNat

/-- The bits of bytes, one byte after the other. -/
def ofBytes (bytes : List UInt8) : List Bool := bytes.flatMap ofByte

/-- The number whose bits these are. -/
def value : List Bool → Nat
  | []        => 0
  | b :: bits => b.toNat * 2 ^ bits.length + value bits

@[simp] theorem length_ofNat (width n : Nat) : (ofNat width n).length = width := by
  induction width with
  | zero => rfl
  | succ w ih => rw [ofNat, List.length_cons, ih]

@[simp] theorem length_ofByte (b : UInt8) : (ofByte b).length = 8 := length_ofNat ..

@[simp] theorem ofBytes_nil : ofBytes [] = [] := rfl

@[simp] theorem ofBytes_cons (b : UInt8) (bytes : List UInt8) :
    ofBytes (b :: bytes) = ofByte b ++ ofBytes bytes := List.flatMap_cons

@[simp] theorem ofBytes_append (xs ys : List UInt8) :
    ofBytes (xs ++ ys) = ofBytes xs ++ ofBytes ys := List.flatMap_append

@[simp] theorem length_ofBytes (bytes : List UInt8) :
    (ofBytes bytes).length = 8 * bytes.length := by
  induction bytes with
  | nil => rfl
  | cons b bytes ih =>
      rw [ofBytes_cons, List.length_append, length_ofByte, ih, List.length_cons]
      omega

/-- The bits of a number depend on its low bits alone. -/
theorem ofNat_congr {width n m : Nat} (h : ∀ j < width, n.testBit j = m.testBit j) :
    ofNat width n = ofNat width m := by
  induction width with
  | zero => rfl
  | succ w ih =>
      rw [ofNat, ofNat, h w (Nat.lt_succ_self w), ih fun j hj => h j (Nat.lt_succ_of_lt hj)]

/-- The bits of a number that has none below `width`. -/
theorem ofNat_eq_replicate {width n : Nat} (h : ∀ j < width, n.testBit j = false) :
    ofNat width n = List.replicate width false := by
  induction width with
  | zero => rfl
  | succ w ih =>
      rw [ofNat, h w (Nat.lt_succ_self w), ih fun j hj => h j (Nat.lt_succ_of_lt hj),
        List.replicate_succ]

/-- High bits, then low bits. -/
theorem ofNat_add (high low n : Nat) :
    ofNat (high + low) n = ofNat high (n >>> low) ++ ofNat low n := by
  induction high with
  | zero => rw [Nat.zero_add, ofNat, List.nil_append]
  | succ h ih =>
      rw [Nat.succ_add, ofNat, ofNat, ih, Nat.testBit_shiftRight, Nat.add_comm low h,
        List.cons_append]

theorem value_lt (bits : List Bool) : value bits < 2 ^ bits.length := by
  induction bits with
  | nil => exact Nat.one_pos
  | cons b bits ih =>
      have : b.toNat * 2 ^ bits.length ≤ 2 ^ bits.length := by cases b <;> simp
      rw [value, List.length_cons, Nat.pow_succ]
      omega

/-- **A list of bits is the bits of its value.** -/
theorem ofNat_value (bits : List Bool) : ofNat bits.length (value bits) = bits := by
  induction bits with
  | nil => rfl
  | cons b bits ih =>
      have hlt := value_lt bits
      have hb : value (b :: bits) = 2 ^ bits.length * b.toNat + value bits := by
        rw [value, Nat.mul_comm]
      rw [List.length_cons, ofNat, hb, Nat.testBit_two_pow_mul_add _ hlt, if_neg (Nat.lt_irrefl _),
        Nat.sub_self]
      congr 1
      · cases b <;> rfl
      · conv => rhs; rw [← ih]
        apply ofNat_congr
        intro j hj
        rw [Nat.testBit_two_pow_mul_add _ hlt, if_pos hj]

/-- Whole bytes off the front. -/
theorem ofBytes_take (bytes : List UInt8) (k : Nat) :
    ofBytes (bytes.take k) = (ofBytes bytes).take (8 * k) := by
  induction bytes generalizing k with
  | nil => simp
  | cons b bytes ih =>
      cases k with
      | zero => simp
      | succ k =>
          have hlength : 8 * (k + 1) = (ofByte b).length + 8 * k := by
            rw [length_ofByte]
            omega
          rw [List.take_succ_cons, ofBytes_cons, ofBytes_cons, ih, hlength,
            List.take_length_add_append]

theorem testBit_of_ofNat_eq {width n m : Nat} (h : ofNat width n = ofNat width m) :
    ∀ j < width, n.testBit j = m.testBit j := by
  induction width with
  | zero => exact fun j hj => absurd hj (Nat.not_lt_zero j)
  | succ w ih =>
      rw [ofNat, ofNat, List.cons.injEq] at h
      intro j hj
      rcases Nat.lt_succ_iff_lt_or_eq.mp hj with hj | rfl
      · exact ih h.2 j hj
      · exact h.1

theorem ofByte_injective {a b : UInt8} (h : ofByte a = ofByte b) : a = b := by
  apply UInt8.toNat_inj.mp
  apply Nat.eq_of_testBit_eq
  intro j
  by_cases hj : j < 8
  · exact testBit_of_ofNat_eq h j hj
  · have hle : 2 ^ 8 ≤ 2 ^ j := Nat.pow_le_pow_right (by decide) (Nat.le_of_not_lt hj)
    rw [Nat.testBit_lt_two_pow (Nat.lt_of_lt_of_le a.toNat_lt hle),
      Nat.testBit_lt_two_pow (Nat.lt_of_lt_of_le b.toNat_lt hle)]

/-- Bytes are what their bits are. -/
theorem ofBytes_injective {xs ys : List UInt8} (h : ofBytes xs = ofBytes ys) : xs = ys := by
  have hlength : xs.length = ys.length := by
    have := congrArg List.length h
    rw [length_ofBytes, length_ofBytes] at this
    omega
  induction xs generalizing ys with
  | nil => exact (List.eq_nil_of_length_eq_zero hlength.symm).symm
  | cons x xs ih =>
      cases ys with
      | nil => cases hlength
      | cons y ys =>
          rw [ofBytes_cons, ofBytes_cons] at h
          obtain ⟨hbyte, hrest⟩ := List.append_inj h (by simp)
          rw [ofByte_injective hbyte, ih hrest (Nat.succ_inj.mp hlength)]

/-! ### Bits by their places -/

/-- The first bit is the highest. -/
theorem getElem?_ofNat {width i : Nat} (n : Nat) (hi : i < width) :
    (ofNat width n)[i]? = some (n.testBit (width - 1 - i)) := by
  induction width generalizing i with
  | zero => exact absurd hi (Nat.not_lt_zero i)
  | succ w ih =>
      cases i with
      | zero => rfl
      | succ i =>
          rw [ofNat, List.getElem?_cons_succ, ih (Nat.lt_of_succ_lt_succ hi)]
          congr 2
          omega

/-- The bits of a number have its value. -/
theorem value_ofNat {width n : Nat} (hn : n < 2 ^ width) : value (ofNat width n) = n := by
  have hlt := value_lt (ofNat width n)
  have hbits := ofNat_value (ofNat width n)
  rw [length_ofNat] at hlt hbits
  apply Nat.eq_of_testBit_eq
  intro j
  by_cases hj : j < width
  · exact testBit_of_ofNat_eq hbits j hj
  · have hle : 2 ^ width ≤ 2 ^ j := Nat.pow_le_pow_right (by decide) (Nat.le_of_not_lt hj)
    rw [Nat.testBit_lt_two_pow (Nat.lt_of_lt_of_le hlt hle),
      Nat.testBit_lt_two_pow (Nat.lt_of_lt_of_le hn hle)]

theorem getElem?_eq_testBit {bits : List Bool} {i : Nat} (hi : i < bits.length) :
    bits[i]? = some ((value bits).testBit (bits.length - 1 - i)) := by
  conv => lhs; rw [← ofNat_value bits]
  exact getElem?_ofNat _ hi

/-- Bit `i` of bytes, the most significant of the first byte being bit 0.  Behind the last byte it
is zero. -/
def bitAt (bytes : List UInt8) (i : Nat) : Bool := (ofBytes bytes).getD i false

/-- A bit is found in its byte. -/
theorem bitAt_eq (bytes : List UInt8) (i : Nat) :
    bitAt bytes i = (bytes[i / 8]?.getD 0).toNat.testBit (7 - i % 8) := by
  induction bytes generalizing i with
  | nil => simp [bitAt]
  | cons b bytes ih =>
      rw [bitAt, ofBytes_cons, List.getD_eq_getElem?_getD]
      by_cases hi : i < 8
      · rw [List.getElem?_append_left (by simpa using hi), ofByte, getElem?_ofNat _ hi,
          Nat.div_eq_of_lt hi, Nat.mod_eq_of_lt hi]
        rfl
      · obtain ⟨j, rfl⟩ : ∃ j, i = j + 8 := ⟨i - 8, by omega⟩
        rw [List.getElem?_append_right (by simp), length_ofByte, Nat.add_sub_cancel,
          ← List.getD_eq_getElem?_getD, Nat.add_div_right j (by decide), Nat.add_mod_right,
          List.getElem?_cons_succ, ← ih j]
        rfl

/-- Bytes are their bits in order. -/
theorem eq_of_bitAt {xs ys : List UInt8} (hlength : xs.length = ys.length)
    (h : ∀ i, bitAt xs i = bitAt ys i) : xs = ys := by
  apply ofBytes_injective
  apply List.ext_getElem (by rw [length_ofBytes, length_ofBytes, hlength])
  intro i hx hy
  have hbit := h i
  rwa [bitAt, bitAt, List.getD_eq_getElem _ _ hx, List.getD_eq_getElem _ _ hy] at hbit

end Ais.Bits
