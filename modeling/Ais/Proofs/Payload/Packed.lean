import Ais.Proofs.Payload.Confined

/-!
# Payloads — plain concatenation

The plain way to pack bits is to set them side by side, eight to a byte, and to fill up the last
byte with zero bits (`Bits.pack`).  The packer goes by words, four characters at a time, and writes
the same bytes (`dearmour_eq_pack`).  It does not look at the fill count.  So behind the valid bits
stand the low bits of the last character as it was sent, and zero bits only behind these
(`dearmour_fill`); payloads that differ in them alone agree (`dearmour_agree`).
-/

namespace Ais

namespace Bits

/-- Eight bits from place `8 * k` on, with zeros where there are no more. -/
def octet (bits : List Bool) (k : Nat) : List Bool :=
  (List.range 8).map fun j => bits.getD (8 * k + j) false

/-- Bits side by side in as many bytes as they need. -/
def pack (bits : List Bool) : List UInt8 :=
  (List.range ((bits.length + 7) / 8)).map fun k => UInt8.ofNat (value (octet bits k))

@[simp] theorem length_octet (bits : List Bool) (k : Nat) : (octet bits k).length = 8 := by
  simp [octet]

@[simp] theorem length_pack (bits : List Bool) : (pack bits).length = (bits.length + 7) / 8 := by
  simp [pack]

theorem testBit_octet (bits : List Bool) (k : Nat) {j : Nat} (hj : j < 8) :
    (UInt8.ofNat (value (octet bits k))).toNat.testBit (7 - j) = bits.getD (8 * k + j) false := by
  have hlt := value_lt (octet bits k)
  have hbit := getElem?_eq_testBit (Nat.lt_of_lt_of_eq hj (length_octet bits k).symm)
  rw [length_octet] at hlt hbit
  rw [octet, List.getElem?_map, List.getElem?_range hj, ← octet] at hbit
  rw [UInt8.toNat_ofNat', Nat.mod_eq_of_lt hlt]
  exact (Option.some.inj hbit).symm

/-- **Packed bits stand in their order**, and behind them zeros. -/
theorem bitAt_pack (bits : List Bool) (i : Nat) : bitAt (pack bits) i = bits.getD i false := by
  rw [bitAt_eq, pack, List.getElem?_map]
  by_cases hi : i / 8 < (bits.length + 7) / 8
  · rw [List.getElem?_range hi, Option.map_some, Option.getD_some,
      testBit_octet bits _ (Nat.mod_lt i (by decide)), Nat.div_add_mod]
  · simp [List.getElem?_eq_none (l := bits) (i := i) (by omega), hi]

/-- Zero bits at the end of a list are as good as none. -/
theorem getD_append_zeros (bits : List Bool) (n i : Nat) :
    (bits ++ List.replicate n false).getD i false = bits.getD i false := by
  by_cases hi : i < bits.length
  · rw [List.getD_append _ _ _ _ hi]
  · rw [List.getD_append_right _ _ _ _ (by omega), List.getD_eq_default bits _ (by omega),
      List.getD_eq_getElem?_getD, List.getElem?_replicate]
    split <;> rfl

/-- The value of a character is looked up in a table. -/
theorem ofText_eq_table (text : List UInt8) :
    ofText text = text.flatMap fun c => ofNat 6 (Armour.table.getD c.toNat 0).toNat := by
  refine congrArg (text.flatMap ·) (funext fun c => ?_)
  have hvalue : Armour.table.getD c.toNat 0 = Armour.value c := by
    simp [Armour.table, c.toNat_lt]
  rw [ofChar, hvalue]

end Bits

open Bits

namespace Payload

variable {p p' : Payload} {text : List UInt8} {fill : UInt8} {bits : Nat}

/-- A payload that is filled anew has no channel yet. -/
theorem dearmour_channel (p : Payload) (text : List UInt8) (fill : UInt8) :
    (p.dearmour text fill).1.channel = none := by
  rcases p.dearmour_cases text fill with ⟨e, he⟩ | ⟨q, packed, -, -, hdone⟩
  · rw [he]
    rfl
  · rw [hdone]

/-- Text that fills a payload is packed by plain concatenation. -/
theorem Fills.dearmour_eq (h : Fills text fill) (p : Payload) :
    ∃ p', p.dearmour text fill = (p', .ok (6 * text.length - fill.toNat)) ∧
      p'.bits = 6 * text.length - fill.toNat ∧ p'.bytes = pack (ofText text) := by
  obtain ⟨p', hp', hbits, hbytes⟩ := p.dearmour_ok text fill h.length_le h.fill_le h.fill_lt
  refine ⟨p', hp', hbits, eq_of_bitAt ?_ fun i => ?_⟩
  · have hcount := congrArg List.length hbytes
    rw [length_ofBytes, List.length_append, length_ofText, List.length_replicate,
      Packer.slack] at hcount
    rw [length_pack, length_ofText]
    omega
  · rw [bitAt, hbytes, bitAt_pack]
    exact getD_append_zeros ..

/-- **The packer writes what plain concatenation writes**, whatever the payload held before: the
six bits that the table has for each character, and zero bits up to a whole byte.  It never runs
out of room.  Text that is refused leaves nothing. -/
theorem dearmour_eq_pack (p : Payload) (text : List UInt8) (fill : UInt8) :
    (p.dearmour text fill).2 ≠ .error (.length .packed) ∧
    if Fills text fill then
      ∃ p', p.dearmour text fill = (p', .ok (6 * text.length - fill.toNat)) ∧
        p'.bits = 6 * text.length - fill.toNat ∧ p'.channel = none ∧
        p'.bytes.length = (6 * text.length + 7) / 8 ∧
        p'.bytes = pack (text.flatMap fun c => ofNat 6 (Armour.table.getD c.toNat 0).toNat)
    else
      ∃ p' e, p.dearmour text fill = (p', .error e) ∧
        p'.bytes = [] ∧ p'.bits = 0 ∧ p'.channel = none := by
  by_cases h : Fills text fill
  · obtain ⟨p', hp', hbits, hbytes⟩ := h.dearmour_eq p
    have hchannel := p.dearmour_channel text fill
    rw [if_pos h]
    rw [hp'] at hchannel ⊢
    refine ⟨by simp, p', rfl, hbits, hchannel, ?_, ?_⟩
    · rw [hbytes, length_pack, length_ofText]
    · rw [hbytes, ofText_eq_table]
  · obtain ⟨e, he, hne⟩ := dearmour_refused h p
    rw [if_neg h, he]
    exact ⟨by simpa using hne, p.clear, e, rfl, rfl, rfl, rfl⟩

/-- A payload that is filled has the bits of the text, and behind them zeros. -/
theorem bitAt_of_dearmour (h : p.dearmour text fill = (p', .ok bits)) :
    Fills text fill ∧ bits + fill.toNat = 6 * text.length ∧ p'.bits = bits ∧
      ∀ i, bitAt p'.bytes i = (ofText text).getD i false := by
  by_cases hfills : Fills text fill
  · obtain ⟨q, hq, hbits, hbytes⟩ := hfills.dearmour_eq p
    have hlt := hfills.fill_lt
    rw [h, Prod.mk.injEq, Except.ok.injEq] at hq
    obtain ⟨rfl, rfl⟩ := hq
    exact ⟨hfills, by omega, hbits, fun i => by rw [hbytes, bitAt_pack]⟩
  · obtain ⟨e, he, -⟩ := dearmour_refused hfills p
    rw [h] at he
    cases he

/-! ### Fill bits -/

/-- The low bits of the last character stand last. -/
theorem getD_ofText_last (init : List UInt8) (last : UInt8) {k : Nat} (hk : k < 6) :
    (ofText (init ++ [last])).getD (6 * init.length + k) false =
      (Armour.value last).toNat.testBit (5 - k) := by
  have hsplit : ofText (init ++ [last]) = ofText init ++ ofChar last := by
    simp [ofText]
  rw [hsplit, List.getD_append_right _ _ _ _ (by simp), length_ofText, Nat.add_sub_cancel_left,
    List.getD_eq_getElem?_getD, ofChar, getElem?_ofNat _ hk]
  rfl

/-- Whether the low bits of a number are all zero is told by division. -/
theorem two_pow_dvd_iff_testBit {k n : Nat} : 2 ^ k ∣ n ↔ ∀ j < k, n.testBit j = false := by
  constructor
  · rintro ⟨m, rfl⟩ j hj
    rw [Nat.testBit_two_pow_mul, decide_eq_false (by omega), Bool.false_and]
  · intro hlow
    apply Nat.dvd_of_mod_eq_zero
    apply Nat.eq_of_testBit_eq
    intro j
    rw [Nat.testBit_mod_two_pow, Nat.zero_testBit]
    by_cases hj : j < k
    · rw [hlow j hj, Bool.and_false]
    · rw [decide_eq_false hj, Bool.false_and]

/-- **Behind the valid bits stand the fill bits as they were sent**, the low bits of the last
character, and behind these zeros.  So all that stands there is zero if and only if the fill bits
were sent as zeros. -/
theorem dearmour_fill (h : p.dearmour text fill = (p', .ok bits)) :
    p'.bits = bits ∧ ∃ last ∈ text.getLast?,
      (∀ j < fill.toNat, bitAt p'.bytes (bits + j) =
        (Armour.value last).toNat.testBit (fill.toNat - 1 - j)) ∧
      (∀ i, bits + fill.toNat ≤ i → bitAt p'.bytes i = false) ∧
      ((∀ i, bits ≤ i → bitAt p'.bytes i = false) ↔
        2 ^ fill.toNat ∣ (Armour.value last).toNat) := by
  obtain ⟨⟨hpos, -, hfill⟩, hbits, hvalid, hbit⟩ := bitAt_of_dearmour h
  have hlimit : Limits.fillBits = 5 := rfl
  obtain ⟨init, last, rfl⟩ : ∃ init last, text = init ++ [last] :=
    ⟨_, _, (List.dropLast_concat_getLast (List.length_pos_iff.mp hpos)).symm⟩
  rw [List.length_append, List.length_singleton] at hbits
  have hsent : ∀ j < fill.toNat, bitAt p'.bytes (bits + j) =
      (Armour.value last).toNat.testBit (fill.toNat - 1 - j) := fun j hj => by
    have hplace : bits + j = 6 * init.length + (6 - fill.toNat + j) := by omega
    rw [hbit, hplace, getD_ofText_last init last (by omega)]
    congr 1
    omega
  have hbehind : ∀ i, bits + fill.toNat ≤ i → bitAt p'.bytes i = false := fun i hi => by
    rw [hbit, List.getD_eq_default _ _ (by simp; omega)]
  refine ⟨hvalid, last, by simp, hsent, hbehind, ?_⟩
  rw [two_pow_dvd_iff_testBit]
  constructor
  · intro hzero j hj
    have hlow := hzero (bits + (fill.toNat - 1 - j)) (by omega)
    rwa [hsent _ (by omega), show fill.toNat - 1 - (fill.toNat - 1 - j) = j by omega] at hlow
  · intro hlow i hi
    by_cases hfar : bits + fill.toNat ≤ i
    · exact hbehind i hfar
    · obtain ⟨j, rfl⟩ := Nat.exists_eq_add_of_le hi
      rw [hsent j (by omega)]
      exact hlow _ (by omega)

/-- Fill bits that were sent as zeros. -/
theorem dearmour_fill_zero :
    ∃ p', empty.dearmour [0x77, 0x74] 2 = (p', .ok 10) ∧
      ∀ i, 10 ≤ i → bitAt p'.bytes i = false := by
  have hfills : Fills [0x77, 0x74] 2 := by decide
  obtain ⟨p', hp', -⟩ := hfills.dearmour_eq empty
  obtain ⟨-, last, hlast, -, -, hzero⟩ := dearmour_fill hp'
  obtain rfl : 0x74 = last := Option.some.inj hlast
  exact ⟨p', hp', hzero.mpr (by decide)⟩

/-- Two characters whose last two bits are fill, and were sent as ones: of the six bits behind the
valid ones four are zero. -/
theorem dearmour_fill_set :
    ∃ p', empty.dearmour [0x77, 0x77] 2 = (p', .ok 10) ∧
      p'.bits = 10 ∧ p'.bytes = [0xFF, 0xF0] ∧ bitAt p'.bytes 10 = true := by
  have hfills : Fills [0x77, 0x77] 2 := by decide
  obtain ⟨p', hp', hbits, hbytes⟩ := hfills.dearmour_eq empty
  have hpacked : p'.bytes = [0xFF, 0xF0] := hbytes.trans (by decide)
  exact ⟨p', hp', hbits, hpacked, by rw [hpacked]; decide⟩

/-- Texts that differ in fill bits alone fill payloads that agree. -/
theorem dearmour_agree {q q' : Payload} {text' : List UInt8} {fill' : UInt8}
    (hp : p.dearmour text fill = (p', .ok bits)) (hq : q.dearmour text' fill' = (q', .ok bits))
    (h : (ofText text).take bits = (ofText text').take bits) : p'.Agree q' := by
  obtain ⟨-, -, hbits, hbit⟩ := bitAt_of_dearmour hp
  obtain ⟨-, -, hbits', hbit'⟩ := bitAt_of_dearmour hq
  refine ⟨by rw [hbits, hbits'], fun i hi => ?_⟩
  rw [hbits] at hi
  rw [hbit, hbit', List.getD_eq_getElem?_getD, List.getD_eq_getElem?_getD,
    ← List.getElem?_take_of_lt hi, h, List.getElem?_take_of_lt hi]

end Payload

end Ais
