import Ais.Payload.Packing
import Ais.Proofs.Payload.Bits

/-!
# Payloads — the packer packs bits

A packer stands for the bits it has taken (`Packer.bits`): those of the bytes that went out, and
behind them the top bits of the accumulator.  Below these the accumulator is zero (`Clean`).  Pushing
a number appends its bits (`push_ok`), whether the accumulator goes out or not, and the last flush
fills up to a byte with zero bits (`finish_ok`).  So the bytes of de-armoured text are the six bits
of each character in order, and zero bits up to a whole byte (`dearmour_ok`).  Text that does not
fill a payload is refused before anything is packed (`dearmour_refused`).
-/

namespace Ais

namespace Bits

/-- The six bits that a character stands for. -/
def ofChar (c : UInt8) : List Bool := ofNat 6 (Armour.value c).toNat

/-- The bits of armoured text. -/
def ofText (text : List UInt8) : List Bool := text.flatMap ofChar

@[simp] theorem ofText_nil : ofText [] = [] := rfl

theorem ofText_cons (c : UInt8) (text : List UInt8) :
    ofText (c :: text) = ofChar c ++ ofText text := List.flatMap_cons

@[simp] theorem length_ofText (text : List UInt8) : (ofText text).length = 6 * text.length := by
  induction text with
  | nil => rfl
  | cons c text ih =>
      rw [ofText_cons, List.length_append, ih, ofChar, length_ofNat, List.length_cons]
      omega

end Bits

open Bits

namespace Packer

variable {n : Nat}

/-- The bits that the packer has taken. -/
def bits (p : Packer n) : List Bool :=
  ofBytes p.out.bytes ++ ofNat p.held (p.acc.toNat >>> (64 - p.held))

/-- There is room for a bit, and the accumulator has no bits but those that are held. -/
structure Clean (p : Packer n) : Prop where
  held_lt : p.held < 64
  zero    : ∀ j < 64 - p.held, p.acc.toNat.testBit j = false

/-! ### Shifts -/

theorem toNat_ofNat_mod {k : Nat} (hk : k < 64) : (UInt64.ofNat k).toNat % 64 = k := by
  rw [UInt64.toNat_ofNat', Nat.mod_mod_of_dvd _ (by decide), Nat.mod_eq_of_lt hk]

theorem testBit_shiftLeft (v : UInt64) {k j : Nat} (hk : k < 64) (hj : j < 64) :
    (v <<< UInt64.ofNat k).toNat.testBit j = (decide (k ≤ j) && v.toNat.testBit (j - k)) := by
  rw [UInt64.toNat_shiftLeft, toNat_ofNat_mod hk, Nat.testBit_mod_two_pow, Nat.testBit_shiftLeft]
  simp [hj]

theorem testBit_eq_false {v : UInt64} {width j : Nat} (hv : v.toNat < 2 ^ width) (hj : width ≤ j) :
    v.toNat.testBit j = false :=
  Nat.testBit_lt_two_pow (Nat.lt_of_lt_of_le hv (Nat.pow_le_pow_right (by decide) hj))

theorem ofByte_toUInt8 (w : UInt64) : ofByte w.toUInt8 = ofNat 8 w.toNat :=
  ofNat_congr fun j hj => by
    rw [UInt64.toNat_toUInt8, Nat.testBit_mod_two_pow]
    simp [hj]

/-- The bytes of a word are its bits. -/
theorem ofBytes_wordBytes (w : UInt64) : ofBytes (wordBytes w) = ofNat 64 w.toNat := by
  have hbyte : ∀ k : UInt64, ofByte (w >>> k).toUInt8 = ofNat 8 (w.toNat >>> (k.toNat % 64)) :=
    fun k => by rw [ofByte_toUInt8, UInt64.toNat_shiftRight]
  rw [ofNat_add 8 56, ofNat_add 8 48, ofNat_add 8 40, ofNat_add 8 32, ofNat_add 8 24,
    ofNat_add 8 16, ofNat_add 8 8]
  simp only [wordBytes, ofBytes_cons, ofBytes_nil, hbyte, ofByte_toUInt8, List.append_nil]
  rfl

/-! ### One number -/

theorem write_ok (p : Packer n) (bytes : List UInt8)
    (h : p.out.bytes.length + bytes.length ≤ n) :
    ∃ out, p.write bytes = .ok out ∧ out.bytes = p.out.bytes ++ bytes := by
  obtain ⟨out, hout, hbytes⟩ := p.out.append_ok bytes h
  exact ⟨out, by simp only [write, hout], hbytes⟩

@[simp] theorem length_bits (p : Packer n) :
    p.bits.length = 8 * p.out.bytes.length + p.held := by
  simp [bits]

/-- A number that leaves room in the accumulator stands right behind what is held. -/
theorem bits_keep {p : Packer n} (hp : p.Clean) {v : UInt64} {width : Nat}
    (hv : v.toNat < 2 ^ width) (hpos : 0 < width) (hroom : width < 64 - p.held) :
    let q : Packer n :=
      ⟨p.out, p.acc ||| v <<< UInt64.ofNat (64 - p.held - width), p.held + width⟩
    q.Clean ∧ q.bits = p.bits ++ ofNat width v.toNat := by
  obtain ⟨hheld, hzero⟩ := hp
  have hbit : ∀ j < 64, (p.acc ||| v <<< UInt64.ofNat (64 - p.held - width)).toNat.testBit j =
      (p.acc.toNat.testBit j ||
        (decide (64 - p.held - width ≤ j) && v.toNat.testBit (j - (64 - p.held - width)))) :=
    fun j hj => by
      rw [UInt64.toNat_or, Nat.testBit_or, testBit_shiftLeft v (by omega) hj]
  refine ⟨⟨by simp only; omega, fun j hj => ?_⟩, ?_⟩
  · simp only at hj ⊢
    rw [hbit j (by omega), hzero j (by omega), decide_eq_false (by omega)]
    rfl
  · simp only [bits, List.append_assoc, List.append_cancel_left_eq]
    rw [ofNat_add]
    congr 1
    · apply ofNat_congr
      intro j hj
      rw [Nat.testBit_shiftRight, Nat.testBit_shiftRight, Nat.testBit_shiftRight,
        hbit _ (by omega), testBit_eq_false hv (by omega), Bool.and_false, Bool.or_false]
      congr 1
      omega
    · apply ofNat_congr
      intro j hj
      rw [Nat.testBit_shiftRight, hbit _ (by omega), hzero _ (by omega),
        decide_eq_true (by omega), Bool.false_or, Bool.true_and]
      congr 1
      omega

/-- A number that just fits into the room of the accumulator fills it up. -/
theorem ofNat_acc {p : Packer n} (hp : p.Clean) {w : UInt64}
    (hw : w.toNat < 2 ^ (64 - p.held)) :
    ofNat 64 (p.acc ||| w).toNat =
      ofNat p.held (p.acc.toNat >>> (64 - p.held)) ++ ofNat (64 - p.held) w.toNat := by
  obtain ⟨hheld, hzero⟩ := hp
  have h64 : 64 = p.held + (64 - p.held) := by omega
  conv => lhs; rw [h64, ofNat_add]
  congr 1
  · apply ofNat_congr
    intro j hj
    rw [Nat.testBit_shiftRight, Nat.testBit_shiftRight, UInt64.toNat_or, Nat.testBit_or,
      testBit_eq_false hw (by omega), Bool.or_false]
  · apply ofNat_congr
    intro j hj
    rw [UInt64.toNat_or, Nat.testBit_or, hzero j hj, Bool.false_or]

/-- A number that fills the accumulator goes out with it, and what does not fit is held. -/
theorem bits_flush {p : Packer n} (hp : p.Clean) {v : UInt64} {width : Nat}
    (hv : v.toNat < 2 ^ width) (hwidth : width ≤ 64) (hroom : 64 - p.held ≤ width)
    {out : FixedText n} (hout : out.bytes = p.out.bytes ++
      wordBytes (p.acc ||| v >>> UInt64.ofNat (width - (64 - p.held)))) :
    let spill := width - (64 - p.held)
    let q : Packer n := ⟨out, if spill = 0 then 0 else v <<< UInt64.ofNat (64 - spill), spill⟩
    q.Clean ∧ q.bits = p.bits ++ ofNat width v.toNat := by
  have hheld := hp.held_lt
  intro spill q
  have hspill : width = (64 - p.held) + spill := by omega
  have hspill_lt : spill < 64 := by omega
  have hacc : ∀ j < 64, q.acc.toNat.testBit j =
      (decide (spill ≠ 0 ∧ 64 - spill ≤ j) && v.toNat.testBit (j - (64 - spill))) :=
    fun j hj => by
      by_cases h0 : spill = 0
      · simp [q, h0]
      · simp only [q, if_neg h0, testBit_shiftLeft v (show 64 - spill < 64 by omega) hj]
        simp [h0]
  refine ⟨⟨hspill_lt, fun j hj => ?_⟩, ?_⟩
  · have hj : j < 64 - spill := hj
    rw [hacc j (by omega), decide_eq_false (by omega), Bool.false_and]
  · -- the word is what was held and the first bits of the number, and the others are held now
    have hfirst : (v >>> UInt64.ofNat spill).toNat = v.toNat >>> spill := by
      rw [UInt64.toNat_shiftRight, toNat_ofNat_mod hspill_lt]
    have hfits : (v >>> UInt64.ofNat spill).toNat < 2 ^ (64 - p.held) := by
      rw [hfirst, Nat.shiftRight_eq_div_pow]
      exact Nat.div_lt_of_lt_mul (by rwa [← Nat.pow_add, Nat.add_comm, ← hspill])
    have hlow : ofNat spill (q.acc.toNat >>> (64 - spill)) = ofNat spill v.toNat :=
      ofNat_congr fun j hj => by
        rw [Nat.testBit_shiftRight, hacc _ (by omega), decide_eq_true (by omega), Bool.true_and]
        congr 1
        omega
    have hsplit : ofNat width v.toNat =
        ofNat (64 - p.held) (v.toNat >>> spill) ++ ofNat spill v.toNat := by
      rw [← ofNat_add, ← hspill]
    show ofBytes out.bytes ++ ofNat spill (q.acc.toNat >>> (64 - spill)) = _
    rw [hlow, hout, ofBytes_append, ofBytes_wordBytes, ofNat_acc hp hfits, hfirst, bits,
      hsplit]
    simp only [List.append_assoc]

/-- **Pushing a number appends its bits**, if there is room for them. -/
theorem push_ok (p : Packer n) (hp : p.Clean) {v : UInt64} {width : Nat} (hpos : 0 < width)
    (hwidth : width ≤ 64) (hv : v.toNat < 2 ^ width) (room : p.bits.length + width ≤ 8 * n) :
    ∃ q, p.push v width = .ok q ∧ q.Clean ∧ q.bits = p.bits ++ ofNat width v.toNat := by
  rw [length_bits] at room
  by_cases hroom : width < 64 - p.held
  · exact ⟨_, by simp only [push, if_pos hroom], bits_keep hp hv hpos hroom⟩
  · obtain ⟨out, hout, hbytes⟩ := p.write_ok
      (wordBytes (p.acc ||| v >>> UInt64.ofNat (width - (64 - p.held))))
      (by simp only [wordBytes, List.length_cons, List.length_nil]; omega)
    exact ⟨_, by simp only [push, if_neg hroom, hout],
      bits_flush hp hv hwidth (by omega) hbytes⟩

/-! ### Armoured text -/

/-- The value of a character has six bits. -/
theorem value_lt (c : UInt8) : (Armour.value c).toUInt64.toNat < 2 ^ 6 := by
  rw [UInt8.toNat_toUInt64]
  unfold Armour.value
  split
  · rename_i h
    rw [UInt8.toNat_sub_of_le _ _ h.1]
    have := UInt8.le_iff_toNat_le.mp h.2
    exact Nat.lt_of_le_of_lt (Nat.sub_le_sub_right this _) (by decide)
  · split
    · rename_i h
      rw [UInt8.toNat_sub_of_le _ _ (UInt8.le_trans (by decide) h.1)]
      have := UInt8.le_iff_toNat_le.mp h.2
      exact Nat.lt_of_le_of_lt (Nat.sub_le_sub_right this _) (by decide)
    · decide

theorem testBit_quad (a b c d : UInt8) {j : Nat} (hj : j < 64) :
    (quad a b c d).toNat.testBit j =
      ((((decide (18 ≤ j) && (Armour.value a).toUInt64.toNat.testBit (j - 18)) ||
        (decide (12 ≤ j) && (Armour.value b).toUInt64.toNat.testBit (j - 12))) ||
        (decide (6 ≤ j) && (Armour.value c).toUInt64.toNat.testBit (j - 6))) ||
        (Armour.value d).toUInt64.toNat.testBit j) := by
  simp only [quad, UInt64.toNat_or, Nat.testBit_or]
  rw [← testBit_shiftLeft _ (k := 18) (by decide) hj,
    ← testBit_shiftLeft _ (k := 12) (by decide) hj, ← testBit_shiftLeft _ (k := 6) (by decide) hj]
  rfl

theorem testBit_value {c : UInt8} {j : Nat} (hj : 6 ≤ j) :
    (Armour.value c).toUInt64.toNat.testBit j = false :=
  testBit_eq_false (value_lt c) hj

/-- The bits of four characters are those of each. -/
theorem ofNat_quad (a b c d : UInt8) :
    ofNat 24 (quad a b c d).toNat = ofChar a ++ (ofChar b ++ (ofChar c ++ ofChar d)) := by
  rw [ofNat_add 6 18, ofNat_add 6 12, ofNat_add 6 6]
  simp only [ofChar, ← UInt8.toNat_toUInt64]
  congr 1
  · apply ofNat_congr
    intro j hj
    rw [Nat.testBit_shiftRight, testBit_quad _ _ _ _ (by omega), testBit_value (c := b) (by omega),
      testBit_value (c := c) (by omega), testBit_value (c := d) (by omega)]
    simp
  congr 1
  · apply ofNat_congr
    intro j hj
    rw [Nat.testBit_shiftRight, testBit_quad _ _ _ _ (by omega), decide_eq_false (by omega),
      testBit_value (c := c) (by omega), testBit_value (c := d) (by omega)]
    simp
  congr 1
  · apply ofNat_congr
    intro j hj
    rw [Nat.testBit_shiftRight, testBit_quad _ _ _ _ (by omega), decide_eq_false (by omega),
      decide_eq_false (by omega), testBit_value (c := d) (by omega)]
    simp
  · apply ofNat_congr
    intro j hj
    rw [testBit_quad _ _ _ _ (by omega), decide_eq_false (by omega), decide_eq_false (by omega),
      decide_eq_false (by omega)]
    simp

theorem quad_lt (a b c d : UInt8) : (quad a b c d).toNat < 2 ^ 24 := by
  apply Nat.lt_pow_two_of_testBit
  intro j hj
  by_cases h64 : j < 64
  · rw [testBit_quad _ _ _ _ h64, testBit_value (by omega), testBit_value (by omega),
      testBit_value (by omega), testBit_value (by omega)]
    simp
  · exact testBit_eq_false (quad a b c d).toNat_lt (by omega)

/-- Characters one by one append their bits. -/
theorem singles_ok (p : Packer n) (hp : p.Clean) (cs : List UInt8)
    (room : p.bits.length + 6 * cs.length ≤ 8 * n) :
    ∃ q, p.singles cs = .ok q ∧ q.Clean ∧ q.bits = p.bits ++ ofText cs := by
  induction cs generalizing p with
  | nil => exact ⟨p, rfl, hp, by simp [ofText]⟩
  | cons c cs ih =>
      rw [List.length_cons] at room
      obtain ⟨q, hpush, hq, hbits⟩ := p.push_ok hp (by decide) (by decide) (value_lt c) (by omega)
      obtain ⟨r, hsingles, hr, hbits'⟩ := ih q hq (by
        rw [hbits, List.length_append, length_ofNat]
        omega)
      refine ⟨r, by simp only [singles, hpush, hsingles], hr, ?_⟩
      rw [hbits', hbits, List.append_assoc, ofText_cons, ofChar, UInt8.toNat_toUInt64]

/-- **Armoured text appends the bits of its characters**, if there is room for them. -/
theorem armoured_ok (p : Packer n) (hp : p.Clean) (cs : List UInt8)
    (room : p.bits.length + 6 * cs.length ≤ 8 * n) :
    ∃ q, p.armoured cs = .ok q ∧ q.Clean ∧ q.bits = p.bits ++ ofText cs := by
  fun_induction armoured p cs with
  | case1 p a b c d rest f hpush =>
      obtain ⟨q, hq, -⟩ := p.push_ok hp (by decide) (by decide) (quad_lt a b c d) (by
        simp only [List.length_cons] at room
        omega)
      rw [hpush] at hq
      cases hq
  | case2 p a b c d rest q hpush ih =>
      simp only [List.length_cons] at room
      obtain ⟨q', hq', hclean, hbits⟩ := p.push_ok hp (by decide) (by decide) (quad_lt a b c d)
        (by omega)
      rw [hpush] at hq'
      cases hq'
      obtain ⟨r, harmoured, hr, hbits'⟩ := ih hclean (by
        rw [hbits, List.length_append, length_ofNat]
        omega)
      refine ⟨r, harmoured, hr, ?_⟩
      rw [hbits', hbits, ofNat_quad]
      simp only [ofText_cons, List.append_assoc]
  | case3 p rest h => exact p.singles_ok hp rest room

/-! ### The end -/

theorem clean_start (out : FixedText n) : (start out).Clean :=
  ⟨Nat.zero_lt_succ 63, fun j _ => Nat.zero_testBit j⟩

@[simp] theorem bits_start (out : FixedText n) : (start out).bits = [] := rfl

/-- How many zero bits fill `bits` bits up to a whole byte. -/
def slack (bits : Nat) : Nat := 8 * ((bits + 7) / 8) - bits

/-- **The last flush** puts out what is held, and zero bits up to a whole byte. -/
theorem finish_ok (p : Packer n) (hp : p.Clean) (room : p.bits.length ≤ 8 * n) :
    ∃ out, p.finish = .ok out ∧
      ofBytes out.bytes = p.bits ++ List.replicate (slack p.bits.length) false := by
  have hheld := hp.held_lt
  rw [length_bits] at room
  have hlength : ((wordBytes p.acc).take ((p.held + 7) / 8)).length = (p.held + 7) / 8 := by
    simp only [wordBytes, List.length_take, List.length_cons, List.length_nil]
    omega
  obtain ⟨out, hout, hbytes⟩ := p.write_ok ((wordBytes p.acc).take ((p.held + 7) / 8)) (by omega)
  refine ⟨out, hout, ?_⟩
  have htop : 8 * ((p.held + 7) / 8) = p.held + slack p.bits.length := by
    rw [slack, length_bits]
    omega
  -- behind what is held the accumulator is zero
  have hword : ofNat 64 p.acc.toNat =
      ofNat p.held (p.acc.toNat >>> (64 - p.held)) ++ List.replicate (64 - p.held) false := by
    have hzero : ofNat (64 - p.held) 0 = List.replicate (64 - p.held) false :=
      ofNat_eq_replicate fun j _ => Nat.zero_testBit j
    have := ofNat_acc hp (w := 0) (Nat.two_pow_pos _)
    rwa [UInt64.or_zero, UInt64.toNat_zero, hzero] at this
  rw [hbytes, ofBytes_append, ofBytes_take, ofBytes_wordBytes, hword, htop]
  generalize slack p.bits.length = pad at htop ⊢
  rw [bits, List.append_assoc]
  have hfront := length_ofNat p.held (p.acc.toNat >>> (64 - p.held))
  generalize ofNat p.held (p.acc.toNat >>> (64 - p.held)) = front at hfront ⊢
  rw [← hfront, List.take_length_add_append, List.take_replicate, hfront,
    Nat.min_eq_left (by omega)]

end Packer

namespace Payload

/-- Text is refused, or goes through the packer. -/
theorem dearmour_cases (p : Payload) (text : List UInt8) (fill : UInt8) :
    (∃ e, p.dearmour text fill = (p.clear, .error e)) ∨
      ∃ q packed, (Packer.start p.packed).armoured text = .ok q ∧ q.finish = .ok packed ∧
        p.dearmour text fill = (⟨packed, text.length * 6 - fill.toNat, none⟩,
          .ok (text.length * 6 - fill.toNat)) := by
  rw [dearmour]
  split
  case isTrue => exact .inl ⟨_, rfl⟩
  split
  case isTrue => exact .inl ⟨_, rfl⟩
  split
  case isTrue => exact .inl ⟨_, rfl⟩
  split
  case h_1 f _ => exact .inl ⟨f, rfl⟩
  case h_2 packed hpacked =>
    cases hq : (Packer.start p.packed).armoured text with
    | error f =>
        rw [hq] at hpacked
        cases hpacked
    | ok q =>
        rw [hq] at hpacked
        exact .inr ⟨q, packed, rfl, hpacked, rfl⟩

/-- **Taking the armour off** gives the bits of the characters, less the fill bits, and writes them
with zero bits up to a whole byte, whatever the payload held before. -/
theorem dearmour_ok (p : Payload) (text : List UInt8) (fill : UInt8)
    (hlength : text.length ≤ Limits.armouredChars) (hfill : fill.toNat ≤ Limits.fillBits)
    (hne : fill.toNat < 6 * text.length) :
    ∃ p', p.dearmour text fill = (p', .ok (6 * text.length - fill.toNat)) ∧
      p'.bits = 6 * text.length - fill.toNat ∧
      ofBytes p'.bytes =
        ofText text ++ List.replicate (Packer.slack (6 * text.length)) false := by
  have room : 6 * text.length ≤ 8 * Limits.payloadBytes := by
    have : 6 * Limits.armouredChars ≤ 8 * Limits.payloadBytes := by decide
    exact Nat.le_trans (Nat.mul_le_mul_left 6 hlength) this
  obtain ⟨q, hq, hclean, hbits⟩ := (Packer.start p.packed).armoured_ok (Packer.clean_start _) text
    (by simpa using room)
  rw [Packer.bits_start, List.nil_append] at hbits
  obtain ⟨out, hout, hbytes⟩ := q.finish_ok hclean (by simpa [hbits] using room)
  rw [hbits, length_ofText] at hbytes
  refine ⟨⟨out, 6 * text.length - fill.toNat, none⟩, ?_, rfl, hbytes⟩
  have hpacked : ((Packer.start p.packed).armoured text).bind Packer.finish = .ok out := by
    rw [hq]
    exact hout
  rw [dearmour, if_neg (by omega), if_neg (by omega), if_neg (by omega), hpacked, Nat.mul_comm]

/-- What text must be like to fill a payload. -/
structure Fills (text : List UInt8) (fill : UInt8) : Prop where
  pos       : 0 < text.length
  length_le : text.length ≤ Limits.armouredChars
  fill_le   : fill.toNat ≤ Limits.fillBits

instance (text : List UInt8) (fill : UInt8) : Decidable (Fills text fill) :=
  decidable_of_iff (0 < text.length ∧ text.length ≤ Limits.armouredChars ∧
      fill.toNat ≤ Limits.fillBits)
    ⟨fun h => ⟨h.1, h.2.1, h.2.2⟩, fun h => ⟨h.pos, h.length_le, h.fill_le⟩⟩

variable {text : List UInt8} {fill : UInt8}

/-- The fill bits are bits of the last character. -/
theorem Fills.fill_lt (h : Fills text fill) : fill.toNat < 6 * text.length := by
  have hlimit : Limits.fillBits = 5 := rfl
  obtain ⟨hpos, -, hfill⟩ := h
  omega

/-- Other text is refused before anything is packed. -/
theorem dearmour_refused (h : ¬ Fills text fill) (p : Payload) :
    ∃ e, p.dearmour text fill = (p.clear, .error e) ∧ e ≠ .length .packed := by
  by_cases hlength : Limits.armouredChars < text.length
  · exact ⟨_, by rw [dearmour, if_pos hlength], by simp⟩
  by_cases hfill : Limits.fillBits < fill.toNat
  · exact ⟨_, by rw [dearmour, if_neg hlength, if_pos hfill], by simp⟩
  have hempty : text.length * 6 ≤ fill.toNat := by
    have hpos : ¬ 0 < text.length := fun hpos =>
      h ⟨hpos, Nat.le_of_not_lt hlength, Nat.le_of_not_lt hfill⟩
    omega
  exact ⟨_, by rw [dearmour, if_neg hlength, if_neg hfill, if_pos hempty], by simp⟩

end Payload

end Ais
