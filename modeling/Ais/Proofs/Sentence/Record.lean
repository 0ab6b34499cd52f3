import Ais.Proofs.Sentence.Form

/-!
# Sentences — what a record shows

A record keeps its text in storage that earlier sentences have used, so two records of one sentence
need not be equal.  What can be seen of a record is its header and its text (`Sentence.shown`);
what stands behind the text in the storage is not.  `Sentence.Holds f` says that a record shows the
form `f`.

* `parse_text`: a line that begins with a valid form, and does not end there, is read, and the
  record holds the form whatever it held before.
* `parse_inv`: nothing else is read.
* `Holds.isValid_iff` and its neighbours say what the fields of such a record are; `IsRead` is the
  property of being one.
-/

namespace Ais

namespace Sentence

/-- The header that the record shows. -/
def header (s : Sentence) : Header where
  payload   := s.payload
  count     := s.count
  number    := s.number
  messageId := s.messageId
  channel   := s.channel
  fill      := s.fill
  checksum  := s.checksum
  size      := s.text.size

/-- All that can be seen of the record. -/
def shown (s : Sentence) : Header × List UInt8 := (s.header, s.text.bytes)

/-- The record shows the form `f`. -/
def Holds (s : Sentence) (f : Form) : Prop := s.shown = (f.header, f.text)

/-- The record came from a line. -/
def IsRead (s : Sentence) : Prop :=
  ∃ talkers line old size, parse talkers line old = (s, .ok size)

theorem isRead_parse {old : Sentence} {talkers : Talkers} {line : List UInt8} (size : Nat)
    (h : (old.parse talkers line).2 = .ok size) : (old.parse talkers line).1.IsRead :=
  ⟨talkers, line, old, size, Prod.ext rfl h⟩

/-! ### Reading into a record -/

/-- A header that was read from a line fills any record. -/
theorem fillFrom_text (s : Sentence) {talkers : Talkers} {f : Form} (hf : f.Valid talkers)
    (rest : List UInt8) :
    ∃ s', s.fillFrom f.header (f.text ++ rest) = .ok s' ∧ s'.Holds f := by
  have htake : (f.text ++ rest).take f.header.size = f.text := List.take_left
  have room : s.text.clear.bytes.length + f.text.length ≤ Limits.sentenceBytes := by
    simpa using hf.size
  obtain ⟨text, happend, hbytes⟩ := s.text.clear.append_ok f.text room
  rw [FixedText.bytes_clear, List.nil_append] at hbytes
  refine ⟨_, by rw [fillFrom, htake, happend]; rfl, ?_⟩
  simp [Holds, shown, header, Form.header, FixedText.size, hbytes]

/-- **A valid form is read** wherever something follows it, and into any record. -/
theorem parse_text (old : Sentence) {talkers : Talkers} {f : Form} (hf : f.Valid talkers)
    {rest : List UInt8} (hrest : rest ≠ []) :
    ∃ s, old.parse talkers (f.text ++ rest) = (s, .ok f.text.length) ∧ s.Holds f := by
  have hread : Header.read talkers (f.text ++ rest) = .ok f.header :=
    Header.read_eq_ok_iff.mpr ⟨f, hf, rfl, rest, hrest, rfl⟩
  obtain ⟨s, hfill, hs⟩ := old.fillFrom_text hf rest
  exact ⟨s, by simp only [parse, hread, hfill]; rfl, hs⟩

/-- A line that cannot be read is malformed, and takes the record back to no sentence. -/
theorem parse_of_error (old : Sentence) {talkers : Talkers} {line : List UInt8}
    {why : Malformation} (h : Header.read talkers line = .error why) :
    old.parse talkers line = (old.reset, .error (.malformed why)) := by
  rw [parse, h]

/-- Only valid forms are read. -/
theorem parse_inv {old s : Sentence} {talkers : Talkers} {line : List UInt8} {size : Nat}
    (h : old.parse talkers line = (s, .ok size)) :
    ∃ f : Form, f.Valid talkers ∧ s.Holds f ∧ size = f.text.length ∧
      ∃ rest ≠ [], line = f.text ++ rest := by
  cases hread : Header.read talkers line with
  | error why =>
      rw [old.parse_of_error hread] at h
      cases h
  | ok header =>
      obtain ⟨f, hf, rfl, rest, hrest, rfl⟩ := Header.read_eq_ok_iff.mp hread
      obtain ⟨s', hparse, hs'⟩ := old.parse_text hf hrest
      rw [hparse] at h
      cases h
      exact ⟨f, hf, hs', rfl, rest, hrest, rfl⟩

/-- A size that is not zero is that of the header read, which the record then shows with its text,
whatever it held before. -/
theorem parseSize_inv {old s : Sentence} {talkers : Talkers} {line : List UInt8} {size : Nat}
    (h : old.parseSize talkers line = (s, size)) :
    (∃ header, Header.read talkers line = .ok header ∧ size = header.size ∧ 0 < size ∧
      s.shown = (header, line.take size)) ∨
    (∃ why, Header.read talkers line = .error why ∧ size = 0) := by
  cases hread : Header.read talkers line with
  | ok header =>
      have hpos := Header.size_pos hread
      obtain ⟨f, hf, rfl, rest, hrest, rfl⟩ := Header.read_eq_ok_iff.mp hread
      obtain ⟨s', hparse, hs'⟩ := old.parse_text hf hrest
      simp only [parseSize, hparse] at h
      cases h
      exact .inl ⟨f.header, rfl, rfl, hpos, hs'.trans (by
        rw [show (Except.ok f.text.length : Except Fault Nat).toOption.getD 0 = f.text.length
          from rfl, List.take_left])⟩
  | error why =>
      rw [parseSize, old.parse_of_error hread] at h
      cases h
      exact .inr ⟨why, rfl, rfl⟩

/-- What is read does not depend on what the record held. -/
theorem parseSize_congr {old old' s s' : Sentence} {talkers : Talkers} {line : List UInt8}
    {size size' : Nat} (h : old.parseSize talkers line = (s, size))
    (h' : old'.parseSize talkers line = (s', size')) :
    size = size' ∧ (0 < size → s.shown = s'.shown) := by
  rcases parseSize_inv h with ⟨header, hread, rfl, hpos, hs⟩ | ⟨why, hread, rfl⟩ <;>
    rcases parseSize_inv h' with ⟨header', hread', rfl, hpos', hs'⟩ | ⟨why', hread', rfl⟩ <;>
    rw [hread] at hread' <;> cases hread'
  · exact ⟨rfl, fun _ => hs.trans hs'.symm⟩
  · exact ⟨rfl, fun hpos => absurd hpos (Nat.lt_irrefl 0)⟩

/-- What was read stays so when the line goes on, record and all. -/
theorem parseSize_append {old s : Sentence} {talkers : Talkers} {line : List UInt8} {size : Nat}
    (h : old.parseSize talkers line = (s, size)) (hsize : 0 < size) (more : List UInt8) :
    old.parseSize talkers (line ++ more) = (s, size) ∧ size < line.length := by
  obtain ⟨header, hread, rfl, -⟩ := (parseSize_inv h).resolve_right
    (fun ⟨_, _, hzero⟩ => absurd hzero (Nat.ne_of_gt hsize))
  obtain ⟨hread', hlt⟩ := Header.read_append hread more
  refine ⟨?_, hlt⟩
  have hfill : old.fillFrom header (line ++ more) = old.fillFrom header line := by
    rw [fillFrom, fillFrom, List.take_append_of_le_length (Nat.le_of_lt hlt)]
  rw [← h]
  simp only [parseSize, parse, hread, hread', hfill]

/-- A record that was read shows a form. -/
theorem isRead_parseSize {old s : Sentence} {talkers : Talkers} {line : List UInt8} {size : Nat}
    (h : old.parseSize talkers line = (s, size)) (hsize : 0 < size) : s.IsRead := by
  rcases hparse : old.parse talkers line with ⟨s', r⟩
  simp only [parseSize, hparse] at h
  cases h
  cases r with
  | error f => exact absurd hsize (Nat.lt_irrefl 0)
  | ok m => exact ⟨talkers, line, old, m, hparse⟩

/-- The record shows a form that can be read. -/
def HasForm (s : Sentence) : Prop := ∃ (talkers : Talkers) (f : Form), f.Valid talkers ∧ s.Holds f

theorem HasForm.of_shown {s t : Sentence} (h : s.HasForm) (e : s.shown = t.shown) : t.HasForm := by
  obtain ⟨talkers, f, hf, hs⟩ := h
  exact ⟨talkers, f, hf, e.symm.trans hs⟩

theorem IsRead.hasForm {s : Sentence} (h : s.IsRead) : s.HasForm := by
  obtain ⟨talkers, line, old, size, hparse⟩ := h
  obtain ⟨f, hf, hs, -⟩ := parse_inv hparse
  exact ⟨talkers, f, hf, hs⟩

/-! ### The fields of a record that holds a form -/

namespace Holds

variable {s : Sentence} {f : Form}

theorem text (h : s.Holds f) : s.text.bytes = f.text := congrArg Prod.snd h

theorem header (h : s.Holds f) : s.header = f.header := congrArg Prod.fst h

theorem count (h : s.Holds f) : s.count = f.count := congrArg Header.count h.header

theorem number (h : s.Holds f) : s.number = f.number := congrArg Header.number h.header

theorem messageId (h : s.Holds f) : s.messageId = f.messageId := congrArg Header.messageId h.header

theorem channel (h : s.Holds f) : s.channel = f.channel := congrArg Header.channel h.header

theorem fill (h : s.Holds f) : s.fill = f.fill := congrArg Header.fill h.header

theorem checksum (h : s.Holds f) : s.checksum = f.checksum := congrArg Header.checksum h.header

theorem payload (h : s.Holds f) : s.payload = ⟨f.opening.length, f.payload.length⟩ :=
  congrArg Header.payload h.header

/-- The payload is found where it was written. -/
theorem payloadBytes (h : s.Holds f) : s.payloadBytes = f.payload := by
  have htext : f.text = f.opening ++ (f.payload ++ ([Ascii.comma, Ascii.digit f.fill] ++
      [Ascii.asterisk, f.high, f.low])) := by simp [Form.text, Form.body]
  have hlen : f.opening.length + f.payload.length ≤ f.text.length := by simp [htext]
  rw [Sentence.payloadBytes, h.payload, h.text, Span.of?, if_pos hlen, htext]
  simp

/-- The checksum is that of all that stands before the `*`. -/
theorem computed (h : s.Holds f) : s.computed = Checksum.compute f.body := by
  rw [Sentence.computed, h.text, Checksum.body]
  simp [Form.text, Checksum.suffixBytes]

theorem isValid_iff (h : s.Holds f) : s.isValid = true ↔ Checksum.compute f.body = f.checksum := by
  rw [isValid, h.computed, h.checksum, beq_iff_eq]

theorem slot (h : s.Holds f) : s.slot = (f.messageId.getD 0).toNat := by
  rw [Sentence.slot, h.messageId]

/-- Every slot that a sentence can name is there. -/
theorem slot_lt (h : s.Holds f) {talkers : Talkers} (hf : f.Valid talkers) :
    s.slot < Limits.slots := by
  rw [h.slot]
  cases hid : f.messageId with
  | none => decide
  | some d =>
      have := UInt8.le_iff_toNat_le.mp (hf.messageId d hid)
      exact Nat.lt_succ_of_le this

end Holds

end Sentence

end Ais
