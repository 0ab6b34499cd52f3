import Ais.Payload.Reader
import Ais.Proofs.Payload.Packer

/-!
# Payloads — what a field says

A reader cuts a field out of a window of two or six bytes.  Whatever the width and the place, what
is left after the two shifts are the bits of the field and nothing else (`ofNat_window`), so each
read is a function of its own bits: a number is their value (`unsigned_run`), a signed number their
value extended by the first of them (`signed_run`), and a text what they spell by sixes
(`text_run`).
-/

namespace Ais

namespace Bits

/-- The letters that bits spell by sixes, up to the first six that are zero. -/
def letters : List Bool → List Char
  | a :: b :: c :: d :: e :: f :: rest =>
    let code := UInt8.ofNat (value [a, b, c, d, e, f])
    if code = 0 then [] else SixBit.letter code :: letters rest
  | _ => []

theorem letters_of_short {bits : List Bool} (h : bits.length < 6) : letters bits = [] := by
  rw [letters]
  rintro a b c d e f rest rfl
  simp only [List.length_cons] at h
  omega

end Bits

open Bits

namespace Reader

/-! ### The window -/

theorem gather_lt {k : Nat} (hk : k ≤ 8) {bytes : List UInt8} (hlength : bytes.length ≤ k) :
    (gather (k - 1) bytes).toNat < 2 ^ (8 * k) := by
  induction bytes generalizing k with
  | nil => exact Nat.two_pow_pos _
  | cons b bytes ih =>
      obtain ⟨m, rfl⟩ : ∃ m, k = m + 1 := ⟨k - 1, by simp at hlength; omega⟩
      have hrest := ih (k := m) (by omega) (by simpa using hlength)
      rw [Nat.add_sub_cancel, gather, UInt64.toNat_or]
      apply Nat.or_lt_two_pow
      · rw [UInt64.toNat_shiftLeft, Packer.toNat_ofNat_mod (by omega), UInt8.toNat_toUInt64]
        refine Nat.lt_of_le_of_lt (Nat.mod_le _ _) ?_
        rw [Nat.shiftLeft_eq, Nat.mul_add, Nat.pow_add, Nat.mul_comm]
        exact Nat.mul_lt_mul_of_pos_left b.toNat_lt (Nat.two_pow_pos _)
      · exact Nat.lt_of_lt_of_le hrest (Nat.pow_le_pow_right (by decide) (by omega))

/-- Bytes side by side keep their bits in order. -/
theorem testBit_gather {k : Nat} (hk : k ≤ 8) {bytes : List UInt8} (hlength : bytes.length ≤ k)
    {j : Nat} (hj : j < 8 * k) :
    (gather (k - 1) bytes).toNat.testBit (8 * k - 1 - j) = bitAt bytes j := by
  induction bytes generalizing k j with
  | nil => simp [gather, bitAt]
  | cons b bytes ih =>
      obtain ⟨m, rfl⟩ : ∃ m, k = m + 1 := ⟨k - 1, by omega⟩
      have hrest : bytes.length ≤ m := by simpa using hlength
      rw [Nat.add_sub_cancel, gather, UInt64.toNat_or, Nat.testBit_or,
        Packer.testBit_shiftLeft _ (by omega) (by omega), UInt8.toNat_toUInt64, bitAt_eq]
      by_cases hfirst : j < 8
      · -- the first byte, above all the others
        have hothers : (gather (m - 1) bytes).toNat.testBit (8 * (m + 1) - 1 - j) = false :=
          Packer.testBit_eq_false (gather_lt (by omega) hrest) (by omega)
        rw [hothers, Bool.or_false, decide_eq_true (by omega), Bool.true_and,
          Nat.div_eq_of_lt hfirst, Nat.mod_eq_of_lt hfirst]
        congr 1
        omega
      · obtain ⟨j, rfl⟩ : ∃ i, j = i + 8 := ⟨j - 8, by omega⟩
        rw [decide_eq_false (by omega), Bool.false_and, Bool.false_or,
          Nat.add_div_right j (by decide), Nat.add_mod_right, List.getElem?_cons_succ,
          ← bitAt_eq, ← ih (k := m) (by omega) hrest (by omega)]
        congr 1
        omega

/-- The bits of a field. -/
def field (r : Reader) (start width : Nat) : List Bool :=
  (List.range width).map fun j => bitAt r.bytes (start + j)

variable (r : Reader) (start : Nat) {width : Nat}

/-- The bits of the bytes from the one that holds the bit `start` on. -/
theorem bitAt_span (bytes : List UInt8) {n j : Nat} (hj : start % 8 + j < 8 * n) :
    bitAt ((bytes.drop (start / 8)).take n) (start % 8 + j) = bitAt bytes (start + j) := by
  have hbyte : start / 8 + (start % 8 + j) / 8 = (start + j) / 8 := by omega
  have hbit : (start % 8 + j) % 8 = (start + j) % 8 := by omega
  rw [bitAt_eq, bitAt_eq, List.getElem?_take_of_lt (by omega), List.getElem?_drop, hbyte, hbit]

/-- **A window begins with the bits of its field.** -/
theorem testBit_window (hwidth : width ≤ widest) {j : Nat} (hj : j < width) :
    (r.window start width).toNat.testBit (63 - j) = bitAt r.bytes (start + j) := by
  have hwidest : widest = 32 := rfl
  -- the bytes that are looked at hold the field
  obtain ⟨n, hn, hspan⟩ : ∃ n ≤ 6, start % 8 + width ≤ 8 * n ∧
      (if 9 < width then 6 else 2) = n := by
    by_cases hwide : 9 < width
    · exact ⟨6, by omega, by omega, if_pos hwide⟩
    · exact ⟨2, by omega, by omega, if_neg hwide⟩
  rw [window, hspan.2, Packer.testBit_shiftLeft _ (by omega) (by omega),
    decide_eq_true (by omega), Bool.true_and]
  have hplace : 63 - j - (16 + start % 8) = 8 * 6 - 1 - (start % 8 + j) := by omega
  rw [hplace, testBit_gather (k := 6) (by decide) (by simp; omega) (by omega),
    bitAt_span start r.bytes (by omega)]

/-- **What is left of a window** behind the field is shifted out. -/
theorem ofNat_window (hwidth : width ≤ widest) :
    ofNat width ((r.window start width).toNat >>> (64 - width)) = r.field start width := by
  have hwidest : widest = 32 := rfl
  apply List.ext_getElem?
  intro j
  by_cases hj : j < width
  · rw [getElem?_ofNat _ hj, Nat.testBit_shiftRight, field, List.getElem?_map,
      List.getElem?_range hj, Option.map_some, ← r.testBit_window start hwidth hj]
    congr 2
    omega
  · simp [field, Nat.le_of_not_lt hj]

/-! ### Fields -/

@[simp] theorem length_field : (r.field start width).length = width := by simp [field]

/-- The value of a field is what is left of its window. -/
theorem value_field (hpos : 0 < width) (hwidth : width ≤ widest) :
    (r.window start width >>> UInt64.ofNat (64 - width)).toNat = value (r.field start width) := by
  have hwidest : widest = 32 := rfl
  have hlt : (r.window start width).toNat >>> (64 - width) < 2 ^ width := by
    rw [Nat.shiftRight_eq_div_pow]
    refine Nat.div_lt_of_lt_mul ?_
    rw [← Nat.pow_add, Nat.sub_add_cancel (by omega)]
    exact (r.window start width).toNat_lt
  rw [UInt64.toNat_shiftRight, Packer.toNat_ofNat_mod (by omega), ← ofNat_window _ _ hwidth,
    value_ofNat hlt]

theorem unsigned_window (hpos : 0 < width) (hwidth : width ≤ widest) :
    (r.window start width >>> UInt64.ofNat (64 - width)).toUInt32 =
      UInt32.ofNat (value (r.field start width)) := by
  rw [← value_field r start hpos hwidth]
  rfl

theorem code_window :
    (r.window start 6 >>> 58).toUInt8 = UInt8.ofNat (value (r.field start 6)) := by
  rw [← value_field r start (by decide) (by decide)]
  rfl

/-- A shift by less than 64 places is that shift. -/
theorem toNat_smod : ∀ k : Fin 64, ((Int64.ofNat k).toBitVec.smod 64).toNat = k := by
  decide +kernel

theorem signed_window (hpos : 0 < width) (hwidth : width ≤ widest) :
    ((r.window start width).toInt64 >>> Int64.ofNat (64 - width)).toInt32 =
      Int32.ofBitVec ((BitVec.ofNat width (value (r.field start width))).signExtend 32) := by
  have hwidest : widest = 32 := rfl
  rw [← value_field r start hpos hwidth, UInt64.toNat_shiftRight, Packer.toNat_ofNat_mod (by omega)]
  generalize r.window start width = w
  have hshift : ((Int64.ofNat (64 - width)).toBitVec.smod 64).toNat = 64 - width :=
    toNat_smod ⟨64 - width, by omega⟩
  apply Int32.toBitVec_inj.mp
  apply BitVec.eq_of_getLsbD_eq
  intro i hi
  have hbit : ∀ j, (BitVec.ofNat width (w.toNat >>> (64 - width))).getLsbD j =
      (decide (j < width) && w.toNat.testBit (64 - width + j)) := fun j => by
    rw [BitVec.getLsbD_ofNat, Nat.testBit_shiftRight]
  have hsign : w.toInt64.toBitVec.msb = w.toNat.testBit 63 := BitVec.msb_eq_getLsbD_last _
  have hsign' : (BitVec.ofNat width (w.toNat >>> (64 - width))).msb = w.toNat.testBit 63 := by
    rw [BitVec.msb_eq_getLsbD_last, hbit, decide_eq_true (by omega), Bool.true_and]
    congr 1
    omega
  have hword : ∀ j, w.toInt64.toBitVec.getLsbD j = w.toNat.testBit j := fun _ => rfl
  rw [Int64.toBitVec_toInt32, Int64.toBitVec_shiftRight, BitVec.sshiftRight', hshift,
    BitVec.getLsbD_signExtend, BitVec.getLsbD_sshiftRight, hsign, hword, Int32.toBitVec_ofBitVec,
    BitVec.getLsbD_signExtend, hbit, hsign']
  by_cases hlt : i < width
  · simp [hi, hlt, show i < 64 by omega, show 64 - width + i < 64 by omega]
  · simp [hi, hlt, show i < 64 by omega, show ¬ 64 - width + i < 64 by omega]

/-! ### Reads -/

/-- A read goes on with what the one before it found, from where that left the reader. -/
theorem run_bind {α β : Type} (m : Read α) (f : α → Read β) :
    (m >>= f).run r = match m.run r with
      | (.ok a, s)    => (f a).run s
      | (.error e, s) => (.error e, s) := by
  change (match m.run r with
    | (x, s) => (ExceptT.bindCont f x : StateM Reader (Except Fault β)) s) = _
  rcases m.run r with ⟨_ | _, s⟩ <;> rfl

/-- What a read of `width` bits answers, if it is a function of its field. -/
def answer {α : Type} (r : Reader) (width : Nat) (f : List Bool → α) : Except Fault α :=
  if r.offset + width ≤ r.bits then .ok (f (r.field r.offset width))
  else .error (.outOfBounds r.offset width r.bits)

/-- As `answer`, for a number. -/
def answerNumber {α : Type} (r : Reader) (width : Nat) (f : List Bool → α) : Except Fault α :=
  if width = 0 ∨ widest < width then .error (.length (.width width widest)) else r.answer width f

/-- Where a read answers, its field lies among the valid bits. -/
theorem answer_eq_ok {α : Type} {r : Reader} {width : Nat} {g : List Bool → α} {a : α}
    (h : r.answer width g = .ok a) :
    r.offset + width ≤ r.bits ∧ g (r.field r.offset width) = a := by
  by_cases hroom : r.offset + width ≤ r.bits
  · rw [answer, if_pos hroom, Except.ok.injEq] at h
    exact ⟨hroom, h⟩
  · rw [answer, if_neg hroom] at h
    cases h

theorem answerNumber_eq_ok {α : Type} {r : Reader} {width : Nat} {g : List Bool → α} {a : α}
    (h : r.answerNumber width g = .ok a) :
    0 < width ∧ width ≤ widest ∧ r.offset + width ≤ r.bits ∧ g (r.field r.offset width) = a := by
  by_cases hwide : width = 0 ∨ widest < width
  · rw [answerNumber, if_pos hwide] at h
    cases h
  · rw [answerNumber, if_neg hwide] at h
    obtain ⟨hroom, hfound⟩ := answer_eq_ok h
    exact ⟨by omega, by omega, hroom, hfound⟩

theorem claim_run (width : Nat) : (claim width).run r =
    (if r.offset + width ≤ r.bits then .ok r.offset
     else .error (.outOfBounds r.offset width r.bits), r.advance width) := rfl

theorem claimNumber_run (width : Nat) : (claimNumber width).run r =
    (if width = 0 ∨ widest < width then .error (.length (.width width widest))
     else if r.offset + width ≤ r.bits then .ok r.offset
     else .error (.outOfBounds r.offset width r.bits), r.advance width) := by
  rw [claimNumber]
  split <;> rfl

/-- A number that is cut out of the window of a field, by its value. -/
theorem number_run {α : Type} (width : Nat) (cut : UInt64 → α) (f : List Bool → α)
    (hcut : 0 < width → width ≤ widest → cut (r.window r.offset width) = f (r.field r.offset width)) :
    (do let start ← claimNumber width
        let s ← get
        return cut (s.window start width) : Read α).run r =
      (r.answerNumber width f, r.advance width) := by
  rw [run_bind, claimNumber_run, answerNumber, answer]
  by_cases hwide : width = 0 ∨ widest < width
  · simp only [if_pos hwide]
  · by_cases hroom : r.offset + width ≤ r.bits
    · simp only [if_neg hwide, if_pos hroom]
      rw [← hcut (by omega) (by omega)]
      rfl
    · simp only [if_neg hwide, if_neg hroom]

/-- **A number is the value of its bits.** -/
theorem unsigned_run (width : Nat) : (unsigned width).run r =
    (r.answerNumber width fun bits => UInt32.ofNat (value bits), r.advance width) :=
  r.number_run width (fun w => (w >>> UInt64.ofNat (64 - width)).toUInt32) _
    (r.unsigned_window r.offset)

/-- **A signed number** is the value of its bits, extended by the first of them. -/
theorem signed_run (width : Nat) : (signed width).run r =
    (r.answerNumber width fun bits =>
      Int32.ofBitVec ((BitVec.ofNat width (value bits)).signExtend 32), r.advance width) :=
  r.number_run width (fun w => (w.toInt64 >>> Int64.ofNat (64 - width)).toInt32) _
    (r.signed_window r.offset)

theorem bool_run : bool.run r =
    (r.answerNumber 1 fun bits => UInt32.ofNat (value bits) != 0, r.advance 1) := by
  have hwide : ¬ (1 = 0 ∨ widest < 1) := by decide
  rw [bool, run_bind, unsigned_run, answerNumber, answerNumber, if_neg hwide, if_neg hwide, answer,
    answer]
  by_cases hroom : r.offset + 1 ≤ r.bits
  · rw [if_pos hroom, if_pos hroom]
    rfl
  · rw [if_neg hroom, if_neg hroom]

theorem field_add (first rest : Nat) :
    r.field start (first + rest) = r.field start first ++ r.field (start + first) rest := by
  rw [field, List.range_add, List.map_append, List.map_map]
  simp only [field, Function.comp_def, Nat.add_assoc]

/-- The letters of a text are those that its bits spell. -/
theorem letters_field (n : Nat) {rest : Nat} (hrest : rest < 6) :
    r.letters start n = Bits.letters (r.field start (6 * n + rest)) := by
  induction n generalizing start with
  | zero => exact (letters_of_short (by simpa using hrest)).symm
  | succ n ih =>
      rw [letters, code_window, ih, show 6 * (n + 1) + rest = 6 + (6 * n + rest) by omega,
        r.field_add start 6]
      rfl

/-- **A text is what its bits spell**, without the blanks at its end. -/
theorem text_run (width : Nat) : (text width).run r =
    (r.answer width fun bits => String.ofList (SixBit.trimmed (Bits.letters bits)),
      r.advance width) := by
  rw [text, run_bind, claim_run, answer]
  by_cases hroom : r.offset + width ≤ r.bits
  · have hletters := (r.advance width).letters_field r.offset (width / 6)
      (Nat.mod_lt width (by decide))
    rw [Nat.div_add_mod] at hletters
    simp only [if_pos hroom]
    rw [show r.field r.offset width = (r.advance width).field r.offset width from rfl, ← hletters]
    rfl
  · simp only [if_neg hroom]

end Reader

end Ais
