import Mathlib.Data.List.TakeWhile
import Ais.Sentence.Header

/-!
# Sentences — the written form

A `Form` is a sentence field by field: `text` writes it out, `header` is what a reader should find
in it, and `Valid` says which forms are sentences at all.

* `read_eq_ok_iff`: reading a line succeeds exactly where the line begins with a valid form and at
  least one byte follows, and what is read is the form's header.

Each step of the reader takes some bytes off the line (`Scan.Passes`), and says of itself which
bytes these are; the form is put together from them.
-/

namespace Ais

/-- The ASCII digit of a value below ten. -/
def Ascii.digit (d : UInt8) : UInt8 := 48 + d

theorem Ascii.digit?_eq_some_iff {b d : UInt8} :
    Ascii.digit? b = some d ↔ d ≤ 9 ∧ b = Ascii.digit d := by
  unfold Ascii.digit? Ascii.digit
  grind

theorem Ascii.digit_ne_comma {d : UInt8} (h : d ≤ 9) : Ascii.digit d ≠ Ascii.comma := by
  unfold Ascii.digit Ascii.comma
  grind

theorem Ascii.isLineEnd_digit {d : UInt8} (h : d ≤ 9) : Ascii.isLineEnd (Ascii.digit d) = false := by
  unfold Ascii.isLineEnd Ascii.digit Ascii.carriageReturn Ascii.lineFeed
  grind

theorem Ascii.isLineEnd_of_nibble {b : UInt8} (h : (Ascii.nibble? b).isSome) :
    Ascii.isLineEnd b = false := by
  unfold Ascii.nibble? at h
  unfold Ascii.isLineEnd Ascii.carriageReturn Ascii.lineFeed
  grind

theorem Talkers.length_of_accepts {t : Talkers} {name : List UInt8} (h : t.accepts name = true) :
    name.length = nameBytes := by
  cases t with
  | strict =>
      have : name = Ascii.ofString "AIVDM" := by simpa [accepts] using h
      rw [this]
      rfl
  | any =>
      simp only [accepts, Bool.and_eq_true] at h
      simpa using h.1.1

/-- A talker is written in capitals. -/
theorem Talkers.capital_of_accepts {t : Talkers} {name : List UInt8} {b : UInt8}
    (h : t.accepts name = true) (hb : b ∈ name) : 65 ≤ b ∧ b ≤ 90 := by
  have capital {text : List UInt8} (htext : text.all (fun b => 65 ≤ b && b ≤ 90) = true)
      (hmem : b ∈ text) : 65 ≤ b ∧ b ≤ 90 := by
    simpa using List.all_eq_true.mp htext b hmem
  cases t with
  | strict =>
      have : name = Ascii.ofString "AIVDM" := by simpa [accepts] using h
      rw [this] at hb
      exact capital (by decide) hb
  | any =>
      simp only [accepts, Bool.and_eq_true, Bool.or_eq_true, beq_iff_eq] at h
      obtain ⟨⟨-, hdrop⟩, htake⟩ := h
      rw [← List.take_append_drop 2 name, List.mem_append] at hb
      rcases hb with hb | hb
      · rcases htake with htake | htake <;> exact capital (by rw [htake]; decide) hb
      · rcases hdrop with hdrop | hdrop <;> exact capital (by rw [hdrop]; decide) hb

theorem Talkers.isLineEnd_of_accepts {t : Talkers} {name : List UInt8} {b : UInt8}
    (h : t.accepts name = true) (hb : b ∈ name) : Ascii.isLineEnd b = false := by
  have := Talkers.capital_of_accepts h hb
  unfold Ascii.isLineEnd Ascii.carriageReturn Ascii.lineFeed
  grind

theorem Talkers.comma_not_mem_of_accepts {t : Talkers} {name : List UInt8}
    (h : t.accepts name = true) : Ascii.comma ∉ name := fun hmem => by
  have := (Talkers.capital_of_accepts h hmem).1
  revert this
  decide

/-- Binding two readings succeeds where both do. -/
theorem bind_eq_ok_iff {ε α β : Type} {x : Except ε α} {f : α → Except ε β} {b : β} :
    (x >>= f) = .ok b ↔ ∃ a, x = .ok a ∧ f a = .ok b := by
  cases x with
  | error e => simp [bind, Except.bind]
  | ok a => simp [bind, Except.bind]

/-! ### Steps of the reader -/

namespace Scan

/-- From `s` to `t` the reader takes the bytes `xs`. -/
def Passes (s : Scan) (xs : List UInt8) (t : Scan) : Prop :=
  s.rest = xs ++ t.rest ∧ t.pos = s.pos + xs.length

theorem Passes.trans {s t u : Scan} {xs ys : List UInt8} (h₁ : s.Passes xs t)
    (h₂ : t.Passes ys u) : s.Passes (xs ++ ys) u := by
  refine ⟨?_, ?_⟩
  · rw [h₁.1, h₂.1, List.append_assoc]
  · rw [h₂.2, h₁.2, List.length_append, Nat.add_assoc]

/-- Bytes are taken one part after the other. -/
theorem passes_append {s u : Scan} {xs ys : List UInt8} :
    s.Passes (xs ++ ys) u ↔ ∃ t, s.Passes xs t ∧ t.Passes ys u := by
  constructor
  · intro h
    refine ⟨⟨s.pos + xs.length, ys ++ u.rest⟩, ⟨?_, rfl⟩, rfl, ?_⟩
    · rw [h.1, List.append_assoc]
    · rw [h.2, List.length_append, Nat.add_assoc]
  · rintro ⟨t, h₁, h₂⟩
    exact h₁.trans h₂

theorem passes_cons_cons {s u : Scan} {x y : UInt8} {xs : List UInt8} :
    s.Passes (x :: y :: xs) u ↔ ∃ t, s.Passes [x] t ∧ t.Passes (y :: xs) u := by
  rw [← List.singleton_append, passes_append]

theorem next_eq_ok_iff {s t : Scan} {b : UInt8} : s.next = .ok (b, t) ↔ s.Passes [b] t := by
  obtain ⟨pos, rest⟩ := s
  obtain ⟨pos', rest'⟩ := t
  cases rest with
  | nil => simp [next, Passes]
  | cons c r => simp [next, Passes, and_assoc, and_comm, eq_comm]

theorem expect_eq_ok_iff {s t : Scan} {want : UInt8} :
    s.expect want = .ok t ↔ s.Passes [want] t := by
  simp only [expect, bind_eq_ok_iff, Prod.exists, next_eq_ok_iff]
  constructor
  · rintro ⟨b, u, hu, h⟩
    split at h
    · rename_i e
      cases h
      exact e ▸ hu
    · cases h
  · exact fun h => ⟨want, t, h, by simp⟩

theorem digit_eq_ok_iff {s t : Scan} {d : UInt8} :
    s.digit = .ok (d, t) ↔ d ≤ 9 ∧ s.Passes [Ascii.digit d] t := by
  simp only [digit, bind_eq_ok_iff, Prod.exists, next_eq_ok_iff]
  constructor
  · rintro ⟨b, u, hu, h⟩
    split at h
    · rename_i v hv
      cases h
      obtain ⟨hd, rfl⟩ := Ascii.digit?_eq_some_iff.mp hv
      exact ⟨hd, hu⟩
    · cases h
  · rintro ⟨hd, h⟩
    exact ⟨_, t, h, by rw [Ascii.digit?_eq_some_iff.mpr ⟨hd, rfl⟩]⟩

/-- An optional field is empty, or is one byte that `field` reads and that is no comma. -/
theorem optional_eq_ok_iff {field : Scan → Except Malformation (UInt8 × Scan)} {s t : Scan}
    {o : Option UInt8} {write : UInt8 → UInt8} {ok : UInt8 → Prop}
    (hfield : ∀ {s t v}, field s = .ok (v, t) ↔ ok v ∧ s.Passes [write v] t) :
    s.optional field = .ok (o, t) ↔
      (∀ v ∈ o, ok v ∧ write v ≠ Ascii.comma) ∧
        s.Passes ((o.map write).toList ++ [Ascii.comma]) t := by
  simp only [optional, bind_eq_ok_iff, Prod.exists, next_eq_ok_iff]
  constructor
  · rintro ⟨b, u, hu, h⟩
    split at h
    · rename_i e
      cases h
      exact ⟨by simp, by simpa [e] using hu⟩
    · rename_i e
      simp only [bind_eq_ok_iff, Prod.exists, hfield, expect_eq_ok_iff] at h
      obtain ⟨v, w, ⟨hv, hw⟩, x, hx, h⟩ := h
      cases h
      have hb : write v = b := by
        have := hw.1.symm.trans hu.1
        simpa using congrArg List.head? this
      refine ⟨fun v' hv' => ?_, hw.trans hx⟩
      obtain rfl : v = v' := by simpa using hv'
      exact ⟨hv, hb ▸ e⟩
  · rintro ⟨ho, h⟩
    cases o with
    | none => exact ⟨Ascii.comma, t, h, by simp⟩
    | some v =>
        obtain ⟨hv, hc⟩ := ho v rfl
        refine ⟨write v, ⟨s.pos + 1, Ascii.comma :: t.rest⟩, ⟨h.1, rfl⟩, ?_⟩
        simp only [hc, if_false, bind_eq_ok_iff, Prod.exists, hfield, expect_eq_ok_iff]
        exact ⟨v, ⟨s.pos + 1, Ascii.comma :: t.rest⟩, ⟨hv, h.1, rfl⟩, t,
          ⟨rfl, h.2⟩, rfl⟩

theorem optionalNext_eq_ok_iff {s t : Scan} {o : Option UInt8} :
    s.optional Scan.next = .ok (o, t) ↔
      (∀ v ∈ o, v ≠ Ascii.comma) ∧ s.Passes (o.toList ++ [Ascii.comma]) t := by
  have hnext : ∀ {s t : Scan} {v : UInt8},
      next s = .ok (v, t) ↔ (fun _ => True) v ∧ s.Passes [id v] t := by simp [next_eq_ok_iff]
  simpa using optional_eq_ok_iff (s := s) (t := t) (o := o) hnext

/-- The payload is the run of bytes up to a comma. -/
theorem payload_eq_ok_iff {s t : Scan} {p : Span} :
    s.payload = .ok (p, t) ↔ ∃ xs : List UInt8, (∀ b ∈ xs, endsPayload b = false) ∧
      p = ⟨s.pos, xs.length⟩ ∧ s.Passes (xs ++ [Ascii.comma]) t := by
  simp only [payload]
  constructor
  · intro h
    generalize hxs : s.rest.takeWhile (fun b => !endsPayload b) = xs at h
    have hrest : xs ++ s.rest.dropWhile (fun b => !endsPayload b) = s.rest :=
      hxs ▸ List.takeWhile_append_dropWhile
    have hrun : ∀ b ∈ xs, endsPayload b = false := fun b hb => by
      rw [← hxs] at hb
      have := List.mem_takeWhile_imp hb
      simpa using this
    rw [← hrest, List.drop_left] at h
    split at h
    · rename_i b r hbr
      split at h
      · rename_i e
        cases h
        refine ⟨xs, hrun, rfl, ?_, by simp [Nat.add_assoc]⟩
        rw [← hrest, hbr, e]
        simp
      · cases h
    · cases h
  · rintro ⟨xs, hxs, rfl, hrest, hpos⟩
    have hrun : s.rest.takeWhile (fun b => !endsPayload b) = xs := by
      rw [hrest, List.append_assoc, List.takeWhile_append_of_pos (by simpa using hxs)]
      simp [endsPayload]
    have hdrop : s.rest.drop xs.length = Ascii.comma :: t.rest := by simp [hrest]
    rw [hrun, hdrop]
    obtain ⟨pos, rest⟩ := t
    simp_all [Nat.add_assoc]

/-- Two hexadecimal digits. -/
theorem hexByte_eq_ok_iff {s t : Scan} {v : UInt8} :
    s.hexByte = .ok (v, t) ↔ ∃ hi lo h l : UInt8, Ascii.nibble? hi = some h ∧
      Ascii.nibble? lo = some l ∧ v = h <<< 4 ||| l ∧ s.Passes [hi, lo] t := by
  simp only [hexByte, bind_eq_ok_iff, Prod.exists, next_eq_ok_iff]
  constructor
  · rintro ⟨hi, u, hu, lo, w, hw, h⟩
    split at h
    · rename_i x y hx hy
      cases h
      exact ⟨hi, lo, x, y, hx, hy, rfl, hu.trans hw⟩
    · cases h
  · rintro ⟨hi, lo, h, l, hh, hl, rfl, hp⟩
    refine ⟨hi, ⟨s.pos + 1, lo :: t.rest⟩, ⟨hp.1, rfl⟩, lo, t, ⟨rfl, hp.2⟩, ?_⟩
    rw [hh, hl]

end Scan

/-! ### Forms -/

/-- A sentence, field by field. -/
structure Form where
  talker    : List UInt8
  count     : UInt8
  number    : UInt8
  messageId : Option UInt8
  channel   : Option UInt8
  payload   : List UInt8
  fill      : UInt8
  /-- The first digit of the checksum. -/
  high      : UInt8
  /-- The second digit of the checksum. -/
  low       : UInt8

namespace Form

/-- What stands before the payload. -/
def opening (f : Form) : List UInt8 :=
  f.talker ++ [Ascii.comma, Ascii.digit f.count, Ascii.comma, Ascii.digit f.number, Ascii.comma] ++
    ((f.messageId.map Ascii.digit).toList ++ [Ascii.comma]) ++ (f.channel.toList ++ [Ascii.comma])

/-- What stands before the checksum. -/
def body (f : Form) : List UInt8 :=
  f.opening ++ f.payload ++ [Ascii.comma, Ascii.digit f.fill]

/-- The sentence as it is written. -/
def text (f : Form) : List UInt8 := f.body ++ [Ascii.asterisk, f.high, f.low]

/-- The parts that a reader takes one by one. -/
theorem text_eq (f : Form) :
    f.text = f.talker ++ [Ascii.comma] ++
      [Ascii.digit f.count, Ascii.comma, Ascii.digit f.number, Ascii.comma] ++
      ((f.messageId.map Ascii.digit).toList ++ [Ascii.comma]) ++
      (f.channel.toList ++ [Ascii.comma]) ++ (f.payload ++ [Ascii.comma]) ++
      [Ascii.digit f.fill, Ascii.asterisk, f.high, f.low] := by
  simp [text, body, opening]

/-- The value of the two digits of the checksum. -/
def checksum (f : Form) : UInt8 :=
  (Ascii.nibble? f.high).getD 0 <<< 4 ||| (Ascii.nibble? f.low).getD 0

/-- What a reader finds in the sentence. -/
def header (f : Form) : Header where
  payload   := ⟨f.opening.length, f.payload.length⟩
  count     := f.count
  number    := f.number
  messageId := f.messageId
  channel   := f.channel
  fill      := f.fill
  checksum  := f.checksum
  size      := f.text.length

/-- The forms that are sentences. -/
structure Valid (talkers : Talkers) (f : Form) : Prop where
  talker    : talkers.accepts f.talker = true
  count_pos : f.count ≠ 0
  count_le  : f.count.toNat ≤ Limits.sentencesPerMessage
  number_pos : f.number ≠ 0
  number_le : f.number ≤ f.count
  messageId : ∀ d ∈ f.messageId, d ≤ 9
  channel   : ∀ c ∈ f.channel, c ≠ Ascii.comma
  payload   : ∀ b ∈ f.payload, Scan.endsPayload b = false
  fill      : f.fill.toNat ≤ Limits.fillBits
  high      : (Ascii.nibble? f.high).isSome
  low       : (Ascii.nibble? f.low).isSome
  size      : f.text.length ≤ Limits.sentenceBytes

end Form

/-- A line terminator in a sentence can only be its channel. -/
theorem Form.Valid.channel_of_mem {talkers : Talkers} {f : Form} (hf : f.Valid talkers) {b : UInt8}
    (hb : Ascii.isLineEnd b = true) (hmem : b ∈ f.text) : f.channel = some b := by
  -- no other field holds one
  have hne : ∀ c, Ascii.isLineEnd c = false → b ≠ c := fun c hc e => by
    rw [← e, hb] at hc
    cases hc
  have hdigit : ∀ d : UInt8, d.toNat ≤ 9 → b ≠ Ascii.digit d := fun d hd =>
    hne _ (Ascii.isLineEnd_digit (UInt8.le_iff_toNat_le.mpr hd))
  have hle : f.number.toNat ≤ f.count.toNat := UInt8.le_iff_toNat_le.mp hf.number_le
  have hcount := hdigit f.count hf.count_le
  have hnumber := hdigit f.number (hle.trans hf.count_le)
  have hfill := hdigit f.fill (hf.fill.trans (by decide))
  have hhigh := hne _ (Ascii.isLineEnd_of_nibble hf.high)
  have hlow := hne _ (Ascii.isLineEnd_of_nibble hf.low)
  have hcomma : b ≠ Ascii.comma := hne _ rfl
  have hasterisk : b ≠ Ascii.asterisk := hne _ rfl
  have htalker : b ∉ f.talker := fun h => hne b (Talkers.isLineEnd_of_accepts hf.talker h) rfl
  have hid : ∀ d ∈ f.messageId, b ≠ Ascii.digit d := fun d hd =>
    hdigit d (UInt8.le_iff_toNat_le.mp (hf.messageId d hd))
  have hpayload : b ∉ f.payload := fun h => by
    have := hf.payload b h
    simp [Scan.endsPayload, hb] at this
  have hmessageId : b ∉ (f.messageId.map Ascii.digit).toList := by
    simpa [eq_comm] using hid
  simpa [Form.text, Form.body, Form.opening, htalker, hcomma, hcount, hnumber, hmessageId,
    hpayload, hfill, hasterisk, hhigh, hlow, eq_comm] using hmem

namespace Form

/-- The fields before the channel. -/
def numbering (f : Form) : List UInt8 :=
  f.talker ++ [Ascii.comma, Ascii.digit f.count, Ascii.comma, Ascii.digit f.number, Ascii.comma] ++
    (f.messageId.map Ascii.digit).toList

/-- The fields behind the channel. -/
def closing (f : Form) : List UInt8 :=
  f.payload ++ [Ascii.comma, Ascii.digit f.fill, Ascii.asterisk, f.high, f.low]

/-- The channel stands between two commas. -/
theorem text_channel (f : Form) :
    f.text = f.numbering ++ [Ascii.comma] ++ (f.channel.toList ++ Ascii.comma :: f.closing) := by
  simp [text, body, opening, numbering, closing]

/-- No line terminator stands before the channel or behind it, as the same form without a channel
shows. -/
theorem Valid.not_mem {talkers : Talkers} {f : Form} (hf : f.Valid talkers) {b : UInt8}
    (hb : Ascii.isLineEnd b = true) :
    b ∉ f.numbering ++ [Ascii.comma] ∧ b ∉ Ascii.comma :: f.closing := by
  have hbare : ({ f with channel := none } : Form).Valid talkers :=
    { hf with
      channel := fun c hc => by cases hc
      size    := by
        refine Nat.le_trans ?_ hf.size
        simp [text, body, opening] }
  have hnone : b ∉ ({ f with channel := none } : Form).text := fun hmem => by
    cases hbare.channel_of_mem hb hmem
  rw [text_channel, List.mem_append, not_or] at hnone
  exact hnone

end Form

/-! ### Reading -/

namespace Header

theorem talker_eq_ok_iff {talkers : Talkers} {line : List UInt8} {t : Scan} :
    talker talkers line = .ok t ↔ ∃ name, name.length = Talkers.nameBytes ∧
      talkers.accepts name = true ∧ Scan.Passes ⟨0, line⟩ name t := by
  simp only [talker]
  constructor
  · intro h
    split at h
    · cases h
    · rename_i hlen
      split at h
      · rename_i ha
        cases h
        have : (line.take Talkers.nameBytes).length = Talkers.nameBytes := by
          have := List.length_take_le Talkers.nameBytes line
          omega
        exact ⟨_, this, ha, by simp, by simp [this]⟩
      · cases h
  · rintro ⟨name, hlen, ha, hrest, hpos⟩
    obtain ⟨pos, rest⟩ := t
    simp only at hrest hpos
    subst hrest
    have htake : (name ++ rest).take Talkers.nameBytes = name := by rw [← hlen]; simp
    have hdrop : (name ++ rest).drop Talkers.nameBytes = rest := by rw [← hlen]; simp
    rw [htake, hdrop, if_neg (by omega), if_pos ha, hpos, hlen, Nat.zero_add]

/-- A check before the rest of a reading lets through what passes it. -/
theorem guard_eq_ok_iff {α : Type} {c : Prop} [Decidable c] {why : Malformation}
    {rest : Unit → Except Malformation α} {a : α} :
    ((if c then (do let r ← Except.error why; rest r) else rest ()) = .ok a) ↔
      ¬ c ∧ rest () = .ok a := by
  by_cases hc : c
  · simp [hc, bind, Except.bind]
  · simp [hc]

theorem numbering_eq_ok_iff {s t : Scan} {count number : UInt8} :
    numbering s = .ok (count, number, t) ↔
      (count ≠ 0 ∧ count.toNat ≤ Limits.sentencesPerMessage ∧ number ≠ 0 ∧ number ≤ count) ∧
        s.Passes [Ascii.digit count, Ascii.comma, Ascii.digit number, Ascii.comma] t := by
  simp only [numbering, bind_eq_ok_iff, Prod.exists, Scan.digit_eq_ok_iff, Scan.expect_eq_ok_iff,
    guard_eq_ok_iff, Scan.passes_cons_cons, not_or, Nat.not_lt, UInt8.not_lt]
  constructor
  · rintro ⟨c, t₁, ⟨-, h₁⟩, hc, t₂, h₂, n, t₃, ⟨-, h₃⟩, hn, t₄, h₄, h⟩
    cases h
    exact ⟨⟨hc.1, hc.2, hn.1, hn.2⟩, t₁, h₁, t₂, h₂, t₃, h₃, h₄⟩
  · rintro ⟨⟨hc, hc', hn, hn'⟩, t₁, h₁, t₂, h₂, t₃, h₃, h₄⟩
    have hc₉ : count ≤ 9 := UInt8.le_iff_toNat_le.mpr hc'
    exact ⟨count, t₁, ⟨hc₉, h₁⟩, ⟨hc, hc'⟩, t₂, h₂, number, t₃,
      ⟨UInt8.le_trans hn' hc₉, h₃⟩, ⟨hn, hn'⟩, t, h₄, rfl⟩

theorem closing_eq_ok_iff {s t : Scan} {fill checksum : UInt8} :
    closing s = .ok (fill, checksum, t) ↔
      ∃ hi lo h l : UInt8, fill.toNat ≤ Limits.fillBits ∧ Ascii.nibble? hi = some h ∧
        Ascii.nibble? lo = some l ∧ checksum = h <<< 4 ||| l ∧
        s.Passes [Ascii.digit fill, Ascii.asterisk, hi, lo] t := by
  simp only [closing, bind_eq_ok_iff, Prod.exists, Scan.digit_eq_ok_iff, Scan.expect_eq_ok_iff,
    guard_eq_ok_iff, Scan.hexByte_eq_ok_iff, Nat.not_lt]
  constructor
  · rintro ⟨f, t₁, ⟨-, h₁⟩, hf, t₂, h₂, c, t₃, ⟨hi, lo, x, y, hx, hy, rfl, h₃⟩, h⟩
    cases h
    exact ⟨hi, lo, x, y, hf, hx, hy, rfl, (h₁.trans h₂).trans h₃⟩
  · rintro ⟨hi, lo, x, y, hf, hx, hy, rfl, h⟩
    obtain ⟨t₁, h₁, h⟩ := Scan.passes_cons_cons.mp h
    obtain ⟨t₂, h₂, h₃⟩ := Scan.passes_cons_cons.mp h
    have hf₉ : fill ≤ 9 := UInt8.le_iff_toNat_le.mpr (hf.trans (by decide))
    exact ⟨fill, t₁, ⟨hf₉, h₁⟩, hf, t₂, h₂, _, t, ⟨hi, lo, x, y, hx, hy, rfl, h₃⟩, rfl⟩

/-- **Reading.**  What a line says can be read exactly where it begins with a valid form and does
not end there; what is read is then the form's header. -/
theorem read_eq_ok_iff {talkers : Talkers} {line : List UInt8} {h : Header} :
    read talkers line = .ok h ↔
      ∃ f : Form, f.Valid talkers ∧ h = f.header ∧ ∃ rest ≠ [], line = f.text ++ rest := by
  simp only [read, bind_eq_ok_iff, Prod.exists, talker_eq_ok_iff, numbering_eq_ok_iff,
    closing_eq_ok_iff, guard_eq_ok_iff, Scan.expect_eq_ok_iff, Scan.payload_eq_ok_iff,
    Scan.optional_eq_ok_iff Scan.digit_eq_ok_iff, Scan.optionalNext_eq_ok_iff, Nat.not_lt,
    List.isEmpty_iff]
  constructor
  · rintro ⟨t₁, ⟨talker, -, ht, h₁⟩, t₂, h₂, count, number, t₃, ⟨⟨hc, hc', hn, hn'⟩, h₃⟩,
      messageId, t₄, ⟨hid, h₄⟩, channel, t₅, ⟨hch, h₅⟩, span, t₆, ⟨payload, hp, rfl, h₆⟩,
      fill, checksum, t₇, ⟨high, low, x, y, hf, hx, hy, rfl, h₇⟩, hrest, hsize, h⟩
    have opened := ((((h₁.trans h₂).trans h₃).trans h₄).trans h₅)
    have whole := (opened.trans h₆).trans h₇
    let f : Form := ⟨talker, count, number, messageId, channel, payload, fill, high, low⟩
    have hopening : f.opening.length = t₅.pos := by
      rw [opened.2]
      simp [f, Form.opening]
    have htext : Scan.Passes ⟨0, line⟩ f.text t₇ := by
      simpa [f, Form.text_eq] using whole
    have hlength : f.text.length = t₇.pos := by simp [htext.2]
    refine ⟨f, ⟨ht, hc, hc', hn, hn', fun d hd => (hid d hd).1, hch, hp, hf, by simp [f, hx],
      by simp [f, hy], hlength ▸ hsize⟩, ?_, t₇.rest, hrest, htext.1⟩
    cases h
    simp only [Form.header, hopening, hlength, Form.checksum, f, hx, hy, Option.getD_some]
  · rintro ⟨f, hf, rfl, rest, hrest, rfl⟩
    obtain ⟨x, hx⟩ := Option.isSome_iff_exists.mp hf.high
    obtain ⟨y, hy⟩ := Option.isSome_iff_exists.mp hf.low
    have whole : Scan.Passes ⟨0, f.text ++ rest⟩ f.text ⟨f.text.length, rest⟩ :=
      ⟨rfl, (Nat.zero_add _).symm⟩
    generalize hs : Scan.mk 0 (f.text ++ rest) = s at whole ⊢
    generalize ht₇ : Scan.mk f.text.length rest = t₇ at whole
    rw [f.text_eq] at whole
    obtain ⟨t₆, whole, h₇⟩ := Scan.passes_append.mp whole
    obtain ⟨t₅, opened, h₆⟩ := Scan.passes_append.mp whole
    obtain ⟨t₄, h, h₅⟩ := Scan.passes_append.mp opened
    obtain ⟨t₃, h, h₄⟩ := Scan.passes_append.mp h
    obtain ⟨t₂, h, h₃⟩ := Scan.passes_append.mp h
    obtain ⟨t₁, h₁, h₂⟩ := Scan.passes_append.mp h
    have hopening : t₅.pos = f.opening.length := by
      rw [opened.2, ← hs]
      simp [Form.opening]
    have hid : ∀ d ∈ f.messageId, d ≤ 9 ∧ Ascii.digit d ≠ Ascii.comma :=
      fun d hd => ⟨hf.messageId d hd, Ascii.digit_ne_comma (hf.messageId d hd)⟩
    refine ⟨t₁, ⟨f.talker, Talkers.length_of_accepts hf.talker, hf.talker, h₁⟩, t₂, h₂,
      f.count, f.number, t₃, ⟨⟨hf.count_pos, hf.count_le, hf.number_pos, hf.number_le⟩, h₃⟩,
      f.messageId, t₄, ⟨hid, h₄⟩, f.channel, t₅, ⟨hf.channel, h₅⟩, _, t₆,
      ⟨f.payload, hf.payload, rfl, h₆⟩, f.fill, f.checksum, t₇,
      ⟨f.high, f.low, x, y, hf.fill, hx, hy, by simp [Form.checksum, hx, hy], h₇⟩, ?_, ?_, ?_⟩
    · rw [← ht₇]
      exact hrest
    · rw [← ht₇]
      exact hf.size
    · rw [hopening, ← ht₇]
      rfl

/-- What can be read stays so when the line goes on. -/
theorem read_append {talkers : Talkers} {line : List UInt8} {h : Header}
    (hread : read talkers line = .ok h) (more : List UInt8) :
    read talkers (line ++ more) = .ok h ∧ h.size < line.length := by
  obtain ⟨f, hf, rfl, rest, hrest, rfl⟩ := read_eq_ok_iff.mp hread
  refine ⟨read_eq_ok_iff.mpr ⟨f, hf, rfl, rest ++ more, by simp [hrest], by simp⟩, ?_⟩
  have := List.length_pos_iff.mpr hrest
  rw [List.length_append]
  exact Nat.lt_add_of_pos_right this

theorem size_pos {talkers : Talkers} {line : List UInt8} {h : Header}
    (hread : read talkers line = .ok h) : 0 < h.size := by
  obtain ⟨f, hf, rfl, -⟩ := read_eq_ok_iff.mp hread
  simp [Form.header, Form.text]

end Header

end Ais
