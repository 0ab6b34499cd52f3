import Ais.Proofs.Checksum
import Ais.Proofs.Sentence.Grammar

/-!
# Sentences — one byte replaced

A line is accepted when it is read and passes its checksum (`Sentence.Accepts`).  If one of the
bytes read is then replaced by another, the line is accepted no longer, but for one exception: the
byte is a digit of the checksum, and its replacement is the same letter in the other case
(`accepts_set_iff`).

The checksum alone would settle it if the sentence ended where it did.  It does, even where a comma
was lost or won: a sentence ends four bytes behind its sixth comma, and one byte away from a line in
which that comma is further back, the `*` of the shorter sentence would stand in the payload of the
longer (`Form.Valid.not_front_lt`).
-/

namespace Ais

/-! ### The other case -/

namespace Ascii

/-- The hexadecimal letters in upper and in lower case. -/
def hexLetters : List (UInt8 × UInt8) := (ofString "ABCDEF").zip (ofString "abcdef")

/-- One hexadecimal letter, in upper case and in lower case. -/
def OtherCase (a b : UInt8) : Prop := (a, b) ∈ hexLetters ∨ (b, a) ∈ hexLetters

instance (a b : UInt8) : Decidable (OtherCase a b) := inferInstanceAs (Decidable (_ ∨ _))

theorem nibble?_hexLetters : ∀ p ∈ hexLetters, nibble? p.1 = nibble? p.2 := by
  have hall : (hexLetters.all fun p => nibble? p.1 == nibble? p.2) = true := by decide
  simpa using List.all_eq_true.mp hall

theorem OtherCase.nibble?_eq {a b : UInt8} (h : OtherCase a b) : nibble? a = nibble? b := by
  rcases h with h | h
  · exact nibble?_hexLetters _ h
  · exact (nibble?_hexLetters _ h).symm

/-- Digits of one value are one letter in both cases, if they are not the same. -/
theorem otherCase_of_hexValue_eq : ∀ a ∈ hexDigits, ∀ b ∈ hexDigits,
    hexValue a = hexValue b → a ≠ b → OtherCase a b := by
  decide +kernel

end Ascii

/-! ### The sixth comma -/

/-- A byte of what stands in front of `ys` stands in it with all that is behind it there. -/
theorem exists_of_append_eq {xs ys pre post : List UInt8} {b : UInt8}
    (h : xs ++ ys = pre ++ b :: post) (hlt : pre.length < xs.length) :
    ∃ mid, xs = pre ++ b :: mid ∧ post = mid ++ ys := by
  rcases List.append_eq_append_iff.mp h with ⟨mid, rfl, -⟩ | ⟨mid, rfl, hmid⟩
  · rw [List.length_append] at hlt
    omega
  · cases mid with
    | nil => simp at hlt
    | cons c mid =>
        obtain ⟨rfl, rfl⟩ := List.cons.inj hmid
        exact ⟨mid, rfl, rfl⟩

namespace Form

/-- What stands before the last comma. -/
def front (f : Form) : List UInt8 := f.opening ++ f.payload

/-- What stands behind the last comma. -/
def ending (f : Form) : List UInt8 := [Ascii.digit f.fill, Ascii.asterisk, f.high, f.low]

theorem text_front (f : Form) : f.text = f.front ++ [Ascii.comma] ++ f.ending := by
  simp [text, body, front, ending]

theorem length_text (f : Form) : f.text.length = f.front.length + 5 := by
  simp [text_front, ending]

variable {talkers : Talkers} {f g : Form}

/-- The digits that a sentence counts in are no commas. -/
theorem Valid.digit_ne_comma (hf : f.Valid talkers) :
    Ascii.digit f.count ≠ Ascii.comma ∧ Ascii.digit f.number ≠ Ascii.comma ∧
      Ascii.digit f.fill ≠ Ascii.comma := by
  have hcount : f.count ≤ 9 := UInt8.le_iff_toNat_le.mpr hf.count_le
  refine ⟨Ascii.digit_ne_comma hcount, Ascii.digit_ne_comma (UInt8.le_trans hf.number_le hcount),
    Ascii.digit_ne_comma ?_⟩
  exact UInt8.le_iff_toNat_le.mpr (hf.fill.trans (by decide))

/-- The last comma is the sixth. -/
theorem Valid.count_front (hf : f.Valid talkers) : f.front.count Ascii.comma = 5 := by
  obtain ⟨hcount, hnumber, -⟩ := hf.digit_ne_comma
  have htalker := List.count_eq_zero.mpr (Talkers.comma_not_mem_of_accepts hf.talker)
  have hid : ((f.messageId.map Ascii.digit).toList).count Ascii.comma = 0 :=
    List.count_eq_zero.mpr fun h => by
      obtain ⟨d, hd, e⟩ := by simpa using h
      exact Ascii.digit_ne_comma (hf.messageId d hd) e
  have hchannel : f.channel.toList.count Ascii.comma = 0 :=
    List.count_eq_zero.mpr fun h => hf.channel _ (by simpa using h) rfl
  have hpayload : f.payload.count Ascii.comma = 0 :=
    List.count_eq_zero.mpr fun h => by cases hf.payload _ h
  simp [front, opening, htalker, hid, hchannel, hpayload, hcount, hnumber]

/-- A piece that `front` ends in, if there is no comma in it, is a piece of the payload. -/
theorem Valid.endsPayload_of_suffix (hf : f.Valid talkers) {w : List UInt8} (hw : w <:+ f.front)
    (hcomma : Ascii.comma ∉ w) : ∀ b ∈ w, Scan.endsPayload b = false := by
  have hpayload : Ascii.comma :: f.payload <:+ f.front :=
    ⟨f.talker ++ [Ascii.comma, Ascii.digit f.count, Ascii.comma, Ascii.digit f.number,
      Ascii.comma] ++ ((f.messageId.map Ascii.digit).toList ++ [Ascii.comma]) ++ f.channel.toList,
      by simp [front, opening]⟩
  rcases List.suffix_or_suffix_of_suffix hw hpayload with h | h
  · rcases List.suffix_cons_iff.mp h with rfl | h
    · exact absurd List.mem_cons_self hcomma
    · exact fun b hb => hf.payload b (h.subset hb)
  · exact absurd (h.subset List.mem_cons_self) hcomma

variable {pre post rest rest' : List UInt8} {b b' : UInt8}

/-- **The last comma cannot move back.**  Of two lines that differ in one byte neither has the last
comma of its sentence further back than the other: all commas of the longer sentence would stand
where the shorter one has them, and behind the last of these it would have the `*` of the shorter
one in its payload. -/
theorem Valid.not_front_lt (hf : f.Valid talkers) (hg : g.Valid talkers)
    (h : f.text ++ rest = pre ++ b :: post) (h' : g.text ++ rest' = pre ++ b' :: post) :
    ¬ f.front.length < g.front.length := by
  intro hlt
  rw [text_front, List.append_assoc] at h h'
  have hsix : (f.front ++ [Ascii.comma]).length = f.front.length + 1 := List.length_append
  -- the byte stands at the last comma of the shorter sentence or before
  have hpre : pre.length < (f.front ++ [Ascii.comma]).length := by
    by_contra hge
    have hbegins : f.front ++ [Ascii.comma] <+: g.front := by
      have hpre : f.front ++ [Ascii.comma] <+: pre := List.prefix_of_prefix_length_le
        (h ▸ List.prefix_append _ _) (List.prefix_append pre _) (by omega)
      refine List.prefix_of_prefix_length_le (hpre.trans (List.prefix_append pre (b' :: post))) ?_
        (by omega)
      rw [← h', List.append_assoc]
      exact List.prefix_append _ _
    have := hbegins.sublist.count_le Ascii.comma
    simp [hf.count_front, hg.count_front] at this
  obtain ⟨mid, hmid, rfl⟩ := exists_of_append_eq h hpre
  -- the longer one goes on where the shorter one has its ending
  obtain ⟨more, hfront⟩ : pre ++ b' :: mid <+: g.front := by
    have hlength := congrArg List.length hmid
    have hbegins : pre ++ b' :: mid <+: g.front ++ [Ascii.comma] ++ (g.ending ++ rest') := by
      rw [h', ← List.cons_append, ← List.append_assoc]
      exact List.prefix_append _ _
    have hfront : g.front <+: g.front ++ [Ascii.comma] ++ (g.ending ++ rest') := by
      rw [List.append_assoc]
      exact List.prefix_append _ _
    refine List.prefix_of_prefix_length_le hbegins hfront ?_
    simp only [List.length_append, List.length_cons] at hlength hsix ⊢
    omega
  have hmore : f.ending ++ rest = more ++ Ascii.comma :: (g.ending ++ rest') := by
    rw [← hfront] at h'
    simpa using h'.symm
  have hcomma : Ascii.comma ∉ more := by
    rw [← List.count_eq_zero]
    have hf₆ := congrArg (List.count Ascii.comma) hmid
    have hg₅ := congrArg (List.count Ascii.comma) hfront
    simp only [List.count_append, List.count_cons, hf.count_front, hg.count_front] at hf₆ hg₅
    grind
  have hpayload := hg.endsPayload_of_suffix ⟨_, hfront⟩ hcomma
  match more, hmore with
  | [], hmore => exact hf.digit_ne_comma.2.2 (List.cons.inj hmore).1
  | [x], hmore => cases (List.cons.inj (List.cons.inj hmore).2).1
  | x :: y :: more, hmore =>
      obtain rfl : Ascii.asterisk = y := (List.cons.inj (List.cons.inj hmore).2).1
      cases hpayload _ (List.mem_cons_of_mem x List.mem_cons_self)

/-- **A sentence ends where it did** when one byte of the line has been replaced, and it still is
one. -/
theorem Valid.length_text_eq (hf : f.Valid talkers) (hg : g.Valid talkers)
    (h : f.text ++ rest = pre ++ b :: post) (h' : g.text ++ rest' = pre ++ b' :: post) :
    f.text.length = g.text.length := by
  have hle := hf.not_front_lt hg h h'
  have hge := hg.not_front_lt hf h' h
  rw [length_text, length_text]
  omega

/-! ### The checksum -/

/-- The checksum is that of the bytes before the `*`. -/
def Checks (f : Form) : Prop := Checksum.compute f.body = f.checksum

/-- A checksum tells whether one of the bytes before the `*` was replaced. -/
theorem not_checks_replaced (hf : f.Checks) (hg : g.Checks) (hne : b ≠ b')
    (hbody : f.body = pre ++ b :: post) (hbody' : g.body = pre ++ b' :: post)
    (hhigh : f.high = g.high) (hlow : f.low = g.low) : False := by
  have hchecksum : f.checksum = g.checksum := by rw [checksum, checksum, hhigh, hlow]
  have hxor : Checksum.xor (pre ++ b :: post) = Checksum.xor (pre ++ b' :: post) := by
    rw [← Checksum.compute_eq_xor, ← Checksum.compute_eq_xor, ← hbody, ← hbody']
    exact hf.trans (hchecksum.trans hg.symm)
  have hcons : ∀ b, Checksum.xor (b :: post) = b ^^^ Checksum.xor post := fun b =>
    Checksum.xor_append [b] post |>.trans (by simp [Checksum.xor])
  rw [Checksum.xor_append, Checksum.xor_append, hcons, hcons, UInt8.xor_right_inj,
    UInt8.xor_left_inj] at hxor
  exact hne hxor

/-- One checksum is written with digits of the same values. -/
theorem Valid.hexValue_eq (hf : f.Valid talkers) (hg : g.Valid talkers)
    (h : f.checksum = g.checksum) : Ascii.hexValue f.high = Ascii.hexValue g.high ∧
      Ascii.hexValue f.low = Ascii.hexValue g.low := by
  have hlt : ∀ b, Ascii.hexValue b < 16 := fun b => Nat.mod_lt _ (by decide)
  have hvalue := congrArg UInt8.toNat h
  rw [(grammatical_iff.mpr hf).checksum_eq, (grammatical_iff.mpr hg).checksum_eq] at hvalue
  have := hlt f.high
  have := hlt f.low
  have := hlt g.high
  have := hlt g.low
  omega

/-- Where a byte of a sentence stands. -/
theorem text_cases (h : f.text = pre ++ b :: post) :
    (∃ mid, f.body = pre ++ b :: mid ∧ post = mid ++ [Ascii.asterisk, f.high, f.low]) ∨
      (pre = f.body ∧ b = Ascii.asterisk ∧ post = [f.high, f.low]) ∨
      (pre = f.body ++ [Ascii.asterisk] ∧ b = f.high ∧ post = [f.low]) ∨
      (pre = f.body ++ [Ascii.asterisk, f.high] ∧ b = f.low ∧ post = []) := by
  rw [text] at h
  by_cases hbody : pre.length < f.body.length
  · exact .inl (exists_of_append_eq h hbody)
  · obtain ⟨last, rfl⟩ : f.body <+: pre := List.prefix_of_prefix_length_le
      (h ▸ List.prefix_append _ _) (List.prefix_append pre _) (Nat.le_of_not_lt hbody)
    rw [List.append_assoc] at h
    have hlast := List.append_cancel_left h
    right
    rcases last with _ | ⟨x, _ | ⟨y, _ | ⟨z, last⟩⟩⟩
    · obtain ⟨rfl, rfl⟩ := List.cons.inj hlast
      exact .inl ⟨List.append_nil _, rfl, rfl⟩
    · obtain ⟨rfl, rfl, rfl⟩ := by simpa using hlast
      exact .inr (.inl ⟨rfl, rfl, rfl⟩)
    · obtain ⟨rfl, rfl, rfl, rfl⟩ := by simpa using hlast
      exact .inr (.inr ⟨rfl, rfl, rfl⟩)
    · simp at hlast

/-- Two sentences that pass their checksums and differ in one byte differ in a digit of it, and that
is one letter in both cases. -/
theorem Valid.otherCase (hf : f.Valid talkers) (hg : g.Valid talkers) (hfc : f.Checks)
    (hgc : g.Checks) (hne : b ≠ b') (h : f.text = pre ++ b :: post)
    (h' : g.text = pre ++ b' :: post) :
    f.text.length ≤ pre.length + 2 ∧ Ascii.OtherCase b b' := by
  have hdigits := (grammatical_iff.mpr hf).checksum
  have hdigits' := (grammatical_iff.mpr hg).checksum
  have hlength : g.body.length = f.body.length := by
    have hf' := congrArg List.length h
    have hg' := congrArg List.length h'
    simp only [text, List.length_append, List.length_cons, List.length_nil] at hf' hg'
    omega
  have hvalues (hbody : g.body = f.body) := hf.hexValue_eq hg (hfc.symm.trans (hbody ▸ hgc))
  rw [text] at h'
  rcases text_cases h with ⟨mid, hbody, rfl⟩ | ⟨rfl, rfl, rfl⟩ | ⟨rfl, rfl, rfl⟩ | ⟨rfl, rfl, rfl⟩
  case inl =>
    obtain ⟨mid', hbody', hpost⟩ := exists_of_append_eq h' (by simp [hlength, hbody])
    obtain ⟨rfl, hend⟩ := List.append_inj' hpost rfl
    obtain ⟨hhigh, hlow⟩ : f.high = g.high ∧ f.low = g.low := by simpa using hend
    exact (not_checks_replaced hfc hgc hne hbody hbody' hhigh hlow).elim
  case inr.inl =>
    exact absurd (List.cons.inj (List.append_inj h' hlength).2).1 hne
  case inr.inr.inl =>
    rw [List.append_assoc] at h'
    obtain ⟨hbody, hlast⟩ := List.append_inj h' hlength
    obtain ⟨rfl, -⟩ : g.high = b' ∧ g.low = f.low := by simpa using hlast
    exact ⟨by simp [text], Ascii.otherCase_of_hexValue_eq _ hdigits.1 _ hdigits'.1
      (hvalues hbody).1 hne⟩
  case inr.inr.inr =>
    rw [List.append_assoc] at h'
    obtain ⟨hbody, hlast⟩ := List.append_inj h' hlength
    obtain ⟨-, rfl⟩ : g.high = f.high ∧ g.low = b' := by simpa using hlast
    exact ⟨by simp [text], Ascii.otherCase_of_hexValue_eq _ hdigits.2 _ hdigits'.2
      (hvalues hbody).2 hne⟩

/-- A sentence stays one, and passes its checksum, with other digits of the same values. -/
theorem Valid.withDigits (hf : f.Valid talkers) (hfc : f.Checks) {high low : UInt8}
    (hhigh : Ascii.nibble? high = Ascii.nibble? f.high)
    (hlow : Ascii.nibble? low = Ascii.nibble? f.low) :
    ({ f with high, low } : Form).Valid talkers ∧ ({ f with high, low } : Form).Checks := by
  refine ⟨{ hf with high := hhigh ▸ hf.high, low := hlow ▸ hf.low, size := ?_ }, ?_⟩
  · have hsize := hf.size
    rw [length_text] at hsize ⊢
    exact hsize
  · show Checksum.compute f.body = _
    rw [checksum, hhigh, hlow]
    exact hfc

/-- A letter of the checksum may be replaced by the same letter in the other case. -/
theorem Valid.exists_of_otherCase (hf : f.Valid talkers) (hfc : f.Checks)
    (h : f.text = pre ++ b :: post) (hlast : f.text.length ≤ pre.length + 2)
    (hcase : Ascii.OtherCase b b') :
    ∃ g : Form, g.Valid talkers ∧ g.Checks ∧ g.text = pre ++ b' :: post := by
  rcases text_cases h with ⟨mid, hbody, rfl⟩ | ⟨rfl, rfl, rfl⟩ | ⟨rfl, rfl, rfl⟩ | ⟨rfl, rfl, rfl⟩
  case inl => simp [text, hbody] at hlast
  case inr.inl => simp [text] at hlast
  case inr.inr.inl =>
    obtain ⟨hg, hgc⟩ := hf.withDigits hfc hcase.nibble?_eq.symm rfl
    exact ⟨_, hg, hgc, by simp [text, body, opening]⟩
  case inr.inr.inr =>
    obtain ⟨hg, hgc⟩ := hf.withDigits hfc rfl hcase.nibble?_eq.symm
    exact ⟨_, hg, hgc, by simp [text, body, opening]⟩

end Form

/-! ### Acceptance -/

namespace Sentence

variable {talkers : Talkers} {old : Sentence} {input : List UInt8} {n : Nat}

/-- The line is read, for `n` bytes, into a record that passes its checksum. -/
def Accepts (old : Sentence) (talkers : Talkers) (input : List UInt8) (n : Nat) : Prop :=
  (old.parse talkers input).2 = .ok n ∧ (old.parse talkers input).1.isValid = true

/-- A line is accepted where it begins with a sentence that passes its checksum, whatever the record
held before. -/
theorem accepts_iff : old.Accepts talkers input n ↔
    ∃ f : Form, f.Valid talkers ∧ f.Checks ∧ n = f.text.length ∧ ∃ rest ≠ [],
      input = f.text ++ rest := by
  constructor
  · rintro ⟨hparse, hvalid⟩
    obtain ⟨f, hf, hs, hsize, hline⟩ := parse_inv (Prod.ext rfl hparse)
    exact ⟨f, hf, hs.isValid_iff.mp hvalid, hsize, hline⟩
  · rintro ⟨f, hf, hchecks, rfl, rest, hrest, rfl⟩
    obtain ⟨s, hparse, hs⟩ := old.parse_text hf hrest
    rw [Accepts, hparse]
    exact ⟨rfl, hs.isValid_iff.mpr hchecks⟩

/-- **One byte replaced.**  Of a line that is accepted for `n` bytes one of these is replaced by
another.  The line is then accepted, into whatever record, if and only if the byte is one of the two
digits of the checksum and its replacement is the same hexadecimal letter in the other case. -/
theorem accepts_set_iff (h : old.Accepts talkers input n) {i : Nat} (hi : i < n) {b : UInt8}
    (hb : input[i]? ≠ some b) (old' : Sentence) :
    (∃ m, old'.Accepts talkers (input.set i b) m) ↔
      n ≤ i + 2 ∧ ∃ a ∈ input[i]?, Ascii.OtherCase a b := by
  obtain ⟨f, hf, hfc, rfl, rest, hrest, rfl⟩ := accepts_iff.mp h
  obtain ⟨pre, a, post, htext, rfl⟩ : ∃ pre a post, f.text = pre ++ a :: post ∧ pre.length = i :=
    ⟨f.text.take i, f.text[i], f.text.drop (i + 1), by simp, by simp; omega⟩
  have hset : (f.text ++ rest).set pre.length b = pre ++ b :: (post ++ rest) := by simp [htext]
  have hget : (f.text ++ rest)[pre.length]? = some a := by simp [htext]
  have hne : a ≠ b := fun e => hb (hget.trans (congrArg some e))
  rw [hset, hget]
  constructor
  · rintro ⟨m, hm⟩
    obtain ⟨g, hg, hgc, rfl, rest', hrest', hline⟩ := accepts_iff.mp hm
    have hlength := hf.length_text_eq hg (by rw [htext, List.append_assoc, List.cons_append])
      hline.symm
    have htext' : g.text = pre ++ b :: post := by
      rw [← List.cons_append, ← List.append_assoc] at hline
      refine (List.append_inj hline ?_).1.symm
      rw [← hlength, htext]
      simp
    obtain ⟨hlast, hcase⟩ := hf.otherCase hg hfc hgc hne htext htext'
    exact ⟨hlast, a, rfl, hcase⟩
  · rintro ⟨hlast, a', ha', hcase⟩
    cases ha'
    obtain ⟨g, hg, hgc, htext'⟩ := hf.exists_of_otherCase hfc htext hlast hcase
    exact ⟨_, accepts_iff.mpr ⟨g, hg, hgc, rfl, rest, hrest, by simp [htext']⟩⟩

/-- A sentence whose checksum ends in `B` is accepted with `b` there, and no more once its third
comma is lost. -/
theorem accepts_set_letter :
    let input := Ascii.ofString "AIVDM,1,1,,A,w0h,2*0B\n"
    empty.Accepts .any input 21 ∧ (∃ m, empty.Accepts .any (input.set 20 98) m) ∧
      ¬ ∃ m, empty.Accepts .any (input.set 9 48) m := by
  intro input
  have h : empty.Accepts .any input 21 := ⟨by decide +kernel, by decide +kernel⟩
  refine ⟨h, (accepts_set_iff h (i := 20) (b := 98) (by decide) (by decide) empty).mpr ?_, ?_⟩
  · exact ⟨by decide, 66, by decide, by decide⟩
  · rw [accepts_set_iff h (i := 9) (b := 48) (by decide) (by decide) empty]
    exact fun hlast => absurd hlast.1 (by decide)

end Sentence

end Ais
