import Ais.Proofs.Sentence.Record

/-!
# Sentences — the grammar

What a sentence is, in terms of its bytes alone (`Form.Grammatical`): which bytes each field may
hold, and how long it all may be.  A line is opened by a form if it begins with it and goes on for
one more byte at least (`Form.Opens`).

* `grammatical_iff`: the grammar is what the reader checks.
* `Opens.unique`: a line is opened by one form at most.
* `parse_iff_opens`: reading accepts the lines that are opened by a form, and no others; what is
  read is that form, and a line that is refused leaves nothing in the record.
-/

namespace Ais

/-! ### Hexadecimal digits -/

namespace Ascii

/-- The hexadecimal digits by value, in upper case and then in lower. -/
def hexDigits : List UInt8 := ofString "0123456789ABCDEF" ++ ofString "0123456789abcdef"

/-- The value of a hexadecimal digit. -/
def hexValue (b : UInt8) : Nat := hexDigits.idxOf b % 16

theorem nibble?_table : ∀ n : Fin 256, let b := UInt8.ofNat n
    nibble? b = if b ∈ hexDigits then some (UInt8.ofNat (hexValue b)) else none := by
  decide +kernel

theorem nibble?_eq (b : UInt8) :
    nibble? b = if b ∈ hexDigits then some (UInt8.ofNat (hexValue b)) else none := by
  have h := nibble?_table ⟨b.toNat, b.toNat_lt⟩
  rwa [UInt8.ofNat_toNat] at h

theorem isSome_nibble? {b : UInt8} : (nibble? b).isSome ↔ b ∈ hexDigits := by
  rw [nibble?_eq]
  split <;> simp [*]

theorem hexPair_table : ∀ h l : Fin 16,
    (UInt8.ofNat h <<< 4 ||| UInt8.ofNat l).toNat = 16 * h + l := by
  decide +kernel

end Ascii

/-! ### Forms in the grammar -/

namespace Form

/-- A form is a sentence: each field holds what it may, and all of it is short enough. -/
structure Grammatical (talkers : Talkers) (f : Form) : Prop where
  talker    : talkers.accepts f.talker = true
  /-- One of so many, and of nine at most. -/
  numbered  : 1 ≤ f.number.toNat ∧ f.number.toNat ≤ f.count.toNat ∧ f.count.toNat ≤ 9
  messageId : ∀ d ∈ f.messageId, d.toNat ≤ 9
  channel   : ∀ c ∈ f.channel, c ≠ Ascii.comma
  payload   : ∀ b ∈ f.payload,
    b ∉ [Ascii.comma, Ascii.asterisk, Ascii.carriageReturn, Ascii.lineFeed]
  fill      : f.fill.toNat ≤ 5
  checksum  : f.high ∈ Ascii.hexDigits ∧ f.low ∈ Ascii.hexDigits
  size      : f.text.length ≤ 82

variable {talkers : Talkers} {f g : Form}

/-- **The grammar is what the reader checks.** -/
theorem grammatical_iff : f.Grammatical talkers ↔ f.Valid talkers := by
  have hpayload : (∀ b ∈ f.payload,
        b ∉ [Ascii.comma, Ascii.asterisk, Ascii.carriageReturn, Ascii.lineFeed]) ↔
      ∀ b ∈ f.payload, Scan.endsPayload b = false := by
    simp [Scan.endsPayload, Ascii.isLineEnd, and_assoc]
  have hpos : ∀ d : UInt8, 1 ≤ d.toNat ↔ d ≠ 0 := fun d => by
    rw [Nat.one_le_iff_ne_zero, ne_eq, ne_eq, ← UInt8.toNat_inj]
    rfl
  constructor
  · intro h
    obtain ⟨hone, hle, hnine⟩ := h.numbered
    exact
      { talker     := h.talker
        count_pos  := (hpos _).mp (hone.trans hle)
        count_le   := hnine
        number_pos := (hpos _).mp hone
        number_le  := UInt8.le_iff_toNat_le.mpr hle
        messageId  := fun d hd => UInt8.le_iff_toNat_le.mpr (h.messageId d hd)
        channel    := h.channel
        payload    := hpayload.mp h.payload
        fill       := h.fill
        high       := Ascii.isSome_nibble?.mpr h.checksum.1
        low        := Ascii.isSome_nibble?.mpr h.checksum.2
        size       := h.size }
  · intro h
    exact
      { talker    := h.talker
        numbered  := ⟨(hpos _).mpr h.number_pos, UInt8.le_iff_toNat_le.mp h.number_le, h.count_le⟩
        messageId := fun d hd => UInt8.le_iff_toNat_le.mp (h.messageId d hd)
        channel   := h.channel
        payload   := hpayload.mpr h.payload
        fill      := h.fill
        checksum  := ⟨Ascii.isSome_nibble?.mp h.high, Ascii.isSome_nibble?.mp h.low⟩
        size      := h.size }

/-- The checksum is the number that its two digits write. -/
theorem Grammatical.checksum_eq (h : f.Grammatical talkers) :
    f.checksum.toNat = 16 * Ascii.hexValue f.high + Ascii.hexValue f.low := by
  have hlt : ∀ b, Ascii.hexValue b < 16 := fun b => Nat.mod_lt _ (by decide)
  rw [Form.checksum, Ascii.nibble?_eq, Ascii.nibble?_eq, if_pos h.checksum.1, if_pos h.checksum.2]
  exact Ascii.hexPair_table ⟨_, hlt f.high⟩ ⟨_, hlt f.low⟩

/-! ### Lines that a form opens -/

/-- The line begins with the form and does not end with it. -/
def Opens (talkers : Talkers) (line : List UInt8) (f : Form) : Prop :=
  f.Grammatical talkers ∧ ∃ rest ≠ [], line = f.text ++ rest

/-- A form is its header and its text. -/
theorem ext_text (hf : f.Valid talkers) (hg : g.Valid talkers) (hheader : f.header = g.header)
    (htext : f.text = g.text) : f = g := by
  have htalker : f.talker.length = g.talker.length :=
    (Talkers.length_of_accepts hf.talker).trans (Talkers.length_of_accepts hg.talker).symm
  have hpayload : f.payload.length = g.payload.length :=
    congrArg (fun h : Header => h.payload.length) hheader
  have hcount : f.count = g.count := congrArg Header.count hheader
  have hnumber : f.number = g.number := congrArg Header.number hheader
  have hid : f.messageId = g.messageId := congrArg Header.messageId hheader
  have hchannel : f.channel = g.channel := congrArg Header.channel hheader
  have hfill : f.fill = g.fill := congrArg Header.fill hheader
  -- the fields between are the same, so the talkers stand against each other, and the payloads
  simp only [text, body, opening, hcount, hnumber, hid, hchannel, hfill, List.append_assoc] at htext
  obtain ⟨htalker, htext⟩ := List.append_inj htext htalker
  have hrest := List.append_cancel_left (List.append_cancel_left (List.append_cancel_left
    (List.append_cancel_left (List.append_cancel_left htext))))
  obtain ⟨hpayload, hend⟩ := List.append_inj hrest hpayload
  have hdigits : f.high = g.high ∧ f.low = g.low := by simpa using hend
  cases f
  cases g
  simp_all

/-- **A line is opened by one form at most.** -/
theorem Opens.unique {line : List UInt8} (hf : f.Opens talkers line) (hg : g.Opens talkers line) :
    f = g := by
  obtain ⟨hf, rest, hrest, hline⟩ := hf
  obtain ⟨hg, rest', hrest', hline'⟩ := hg
  have hf := grammatical_iff.mp hf
  have hg := grammatical_iff.mp hg
  -- both are what is read from the line
  have hread := Header.read_eq_ok_iff.mpr ⟨f, hf, rfl, rest, hrest, hline⟩
  have hread' := Header.read_eq_ok_iff.mpr ⟨g, hg, rfl, rest', hrest', hline'⟩
  have hheader : f.header = g.header := Except.ok.inj (hread.symm.trans hread')
  have hsize : f.text.length = g.text.length := congrArg Header.size hheader
  exact ext_text hf hg hheader (List.append_inj_left (hline.symm.trans hline') hsize)

end Form

/-! ### Reading -/

namespace Sentence

/-- The record says, field by field, what the form does. -/
structure Spells (s : Sentence) (f : Form) : Prop where
  text         : s.text.bytes = f.text
  payloadBytes : s.payloadBytes = f.payload
  payload      : s.payload = ⟨f.opening.length, f.payload.length⟩
  count        : s.count = f.count
  number       : s.number = f.number
  messageId    : s.messageId = f.messageId
  channel      : s.channel = f.channel
  fill         : s.fill = f.fill
  checksum     : s.checksum.toNat = 16 * Ascii.hexValue f.high + Ascii.hexValue f.low

theorem Holds.spells {s : Sentence} {talkers : Talkers} {f : Form} (hf : f.Grammatical talkers)
    (h : s.Holds f) : s.Spells f :=
  ⟨h.text, h.payloadBytes, h.payload, h.count, h.number, h.messageId, h.channel, h.fill,
    h.checksum ▸ hf.checksum_eq⟩

/-- **Reading accepts the grammar and inverts it.**  A line is read, for so many bytes, exactly
where a form of that length opens it.  No other form does, and the record then says what the form
does, whatever it held before.  Any other line is malformed and leaves the record with no text and
no fields. -/
theorem parse_iff_opens (talkers : Talkers) (line : List UInt8) (old : Sentence) :
    (∀ n, (old.parse talkers line).2 = .ok n ↔
        ∃ f : Form, f.Opens talkers line ∧ f.text.length = n) ∧
      (∀ f : Form, f.Opens talkers line →
        (∀ g : Form, g.Opens talkers line → g = f) ∧ (old.parse talkers line).1.Spells f) ∧
      ((¬ ∃ f : Form, f.Opens talkers line) →
        (∃ why, (old.parse talkers line).2 = .error (.malformed why)) ∧
          (old.parse talkers line).1.shown = empty.shown) := by
  have hopened : ∀ f : Form, f.Opens talkers line →
      (old.parse talkers line).2 = .ok f.text.length ∧ (old.parse talkers line).1.Spells f := by
    rintro f ⟨hf, rest, hrest, rfl⟩
    obtain ⟨s, hparse, hs⟩ := old.parse_text (Form.grammatical_iff.mp hf) hrest
    rw [hparse]
    exact ⟨rfl, hs.spells hf⟩
  refine ⟨fun n => ⟨fun h => ?_, ?_⟩, fun f hf => ⟨fun g hg => hg.unique hf, (hopened f hf).2⟩, ?_⟩
  · obtain ⟨f, hf, -, hsize, hline⟩ := parse_inv (Prod.ext rfl h)
    exact ⟨f, ⟨Form.grammatical_iff.mpr hf, hline⟩, hsize.symm⟩
  · rintro ⟨f, hf, rfl⟩
    exact (hopened f hf).1
  · intro hnone
    cases hread : Header.read talkers line with
    | error why =>
        rw [old.parse_of_error hread]
        exact ⟨⟨why, rfl⟩, rfl⟩
    | ok header =>
        obtain ⟨f, hf, -, hline⟩ := Header.read_eq_ok_iff.mp hread
        exact absurd ⟨f, Form.grammatical_iff.mpr hf, hline⟩ hnone

/-- A sentence is read with its line feed, and refused without. -/
theorem parse_iff_opens_terminated :
    let f : Form := ⟨Ascii.ofString "AIVDM", 2, 1, some 3, none, Ascii.ofString "w0h", 2, 54, 102⟩
    let old := (Sentence.empty.parse .any (Ascii.ofString "AIVDM,1,1,,A,w0h,2*0B\n")).1
    f.Opens .strict (f.text ++ [Ascii.lineFeed]) ∧
      (old.parse .strict (f.text ++ [Ascii.lineFeed])).2 = .ok 21 ∧
      (old.parse .strict (f.text ++ [Ascii.lineFeed])).1.Spells f ∧
      (¬ ∃ g : Form, g.Opens .strict f.text) ∧
      (∃ why, (old.parse .strict f.text).2 = .error (.malformed why)) ∧
      (old.parse .strict f.text).1.shown = empty.shown := by
  intro f old
  obtain ⟨hok, hspells, -⟩ := parse_iff_opens .strict (f.text ++ [Ascii.lineFeed]) old
  obtain ⟨hok', -, herror⟩ := parse_iff_opens .strict f.text old
  have hopens : f.Opens .strict (f.text ++ [Ascii.lineFeed]) := by
    refine ⟨⟨?_, ?_, ?_, ?_, ?_, ?_, ?_, ?_⟩, _, List.cons_ne_nil _ _, rfl⟩ <;> decide +kernel
  have hnone : ¬ ∃ g : Form, g.Opens .strict f.text := by
    rintro ⟨g, hg⟩
    have hrefused : (old.parse .strict f.text).2.isOk = false := by decide +kernel
    rw [(hok' _).mpr ⟨g, hg, rfl⟩] at hrefused
    cases hrefused
  exact ⟨hopens, (hok 21).mpr ⟨f, hopens, by decide⟩, (hspells f hopens).2, hnone, herror hnone⟩

end Sentence

end Ais
