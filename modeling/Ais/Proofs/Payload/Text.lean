import Mathlib.Data.List.DropRight
import Ais.Proofs.Payload.Reads

/-!
# Payloads — text fields

A field of text has a code of six bits for each letter; what is left of it, and any code 0, ends the
text, and blanks at the end go.  So what is read is a canonical text (`SixBit.Canonical`): letters of
the alphabet, no `@`, no blank at the end.  Conversely each canonical text that fits is read back
from the field that spells it (`Bits.spell`), whether the field is filled up with zeros at once or
with blanks first.

* `characters_code`: the alphabet tells its letters apart.
* `letters_start`: the letters are those of the groups of six bits, up to the first group of zeros.
* `reads_text`, `text_canonical`: a field that spells a text is read as it, and nothing else is read.
-/

namespace Ais

namespace SixBit

/-- The letters of all codes in order. -/
def characters : List Char := alphabet.map fun b => Char.ofNat b.toNat

example : characters =
    "@ABCDEFGHIJKLMNOPQRSTUVWXYZ[\\]^_ !\"#$%&'()*+,-./0123456789:;<=>?".toList := by
  decide

/-- The code of a letter. -/
def code (c : Char) : Nat := characters.idxOf c

/-- A text as it can stand in a field: it is spelt in one way only. -/
structure Canonical (t : String) : Prop where
  mem_characters : ∀ c ∈ t.toList, c ∈ characters
  not_at         : '@' ∉ t.toList
  not_blank      : t.toList.getLast? ≠ some ' '

theorem canonical_iff {t : String} :
    Canonical t ↔
      t.toList.all (· ∈ characters) = true ∧ '@' ∉ t.toList ∧ t.toList.getLast? ≠ some ' ' := by
  rw [List.all_eq_true]
  constructor
  · exact fun h => ⟨fun c hc => decide_eq_true (h.mem_characters c hc), h.not_at, h.not_blank⟩
  · exact fun ⟨hmem, hat, hblank⟩ => ⟨fun c hc => of_decide_eq_true (hmem c hc), hat, hblank⟩

instance (t : String) : Decidable (Canonical t) := decidable_of_iff' _ canonical_iff

/-- The code of a letter is its place in the alphabet. -/
theorem letter_eq_getElem : ∀ v : Fin characters.length, letter (UInt8.ofNat v) = characters[v] := by
  decide

/-- Only the code 0 is an `@`. -/
theorem at_eq_zero : ∀ v : Fin 64, letter (UInt8.ofNat v) = '@' → v = 0 := by decide

variable {c : Char} {v : Nat}

/-- So it is of any code of six bits. -/
theorem letter_eq_getD (hv : v < 64) : letter (UInt8.ofNat v) = characters.getD v '@' := by
  rw [letter_eq_getElem ⟨v, hv⟩, List.getD_eq_getElem _ _ hv]
  rfl

/-- Any six bits are the code of a letter. -/
theorem letter_mem (hv : v < 64) : letter (UInt8.ofNat v) ∈ characters := by
  rw [letter_eq_getElem ⟨v, hv⟩]
  exact List.getElem_mem _

/-- The code of a letter has six bits. -/
theorem code_lt (hc : c ∈ characters) : code c < 64 := List.idxOf_lt_length_iff.mpr hc

/-- **The alphabet tells its letters apart.** -/
theorem letter_code (hc : c ∈ characters) : letter (UInt8.ofNat (code c)) = c := by
  rw [letter_eq_getElem ⟨code c, code_lt hc⟩]
  exact List.getElem_idxOf (code_lt hc)

/-- No other letter has the code 0. -/
theorem code_ne_zero (hc : c ∈ characters) (hne : c ≠ '@') : code c ≠ 0 := by
  intro hzero
  apply hne
  rw [← letter_code hc, hzero]
  rfl

/-! ### Blanks at the end -/

theorem trimmed_eq (text : List Char) : trimmed text = text.rdropWhile (· == ' ') := rfl

/-- Blanks at the end go, however many. -/
theorem trimmed_append_blanks (text : List Char) (n : Nat) :
    trimmed (text ++ List.replicate n ' ') = trimmed text := by
  induction n with
  | zero => rw [List.replicate_zero, List.append_nil]
  | succ n ih =>
      rw [List.replicate_succ', ← List.append_assoc, trimmed_eq,
        List.rdropWhile_concat_pos _ _ _ rfl]
      exact ih

/-- Nothing goes where no blank is at the end. -/
theorem trimmed_self {text : List Char} (h : text.getLast? ≠ some ' ') : trimmed text = text := by
  rw [trimmed_eq, List.rdropWhile_eq_self_iff]
  intro hne hblank
  apply h
  rw [List.getLast?_eq_getLast_of_ne_nil hne, eq_of_beq hblank]

/-- No blank is left at the end. -/
theorem getLast?_trimmed (text : List Char) : (trimmed text).getLast? ≠ some ' ' := by
  intro hlast
  have hne : trimmed text ≠ [] := by
    rintro hnil
    rw [hnil] at hlast
    cases hlast
  rw [List.getLast?_eq_getLast_of_ne_nil hne, Option.some.injEq] at hlast
  exact List.rdropWhile_last_not (· == ' ') text hne (beq_of_eq hlast)

/-- No letter is new. -/
theorem mem_of_mem_trimmed {text : List Char} (h : c ∈ trimmed text) : c ∈ text :=
  (List.rdropWhile_prefix (· == ' ') text).subset h

theorem length_trimmed_le (text : List Char) : (trimmed text).length ≤ text.length :=
  (List.rdropWhile_prefix (· == ' ') text).length_le

/-- **What codes spell is canonical.** -/
theorem canonical_trimmed {codes : List Nat} (h : ∀ v ∈ codes, v < 64) :
    Canonical (String.ofList
      (trimmed ((codes.takeWhile (· ≠ 0)).map fun v => letter (UInt8.ofNat v)))) := by
  -- each letter comes from a code that is not zero
  have hletter : ∀ c ∈ trimmed ((codes.takeWhile (· ≠ 0)).map fun v => letter (UInt8.ofNat v)),
      ∃ v < 64, v ≠ 0 ∧ letter (UInt8.ofNat v) = c := by
    intro c hc
    obtain ⟨v, hv, hvc⟩ := List.mem_map.mp (mem_of_mem_trimmed hc)
    have hne := List.mem_takeWhile_imp hv
    exact ⟨v, h v ((List.takeWhile_prefix _).subset hv), by simpa using hne, hvc⟩
  refine ⟨?_, ?_, ?_⟩
  · intro c hc
    rw [String.toList_ofList] at hc
    obtain ⟨v, hv, -, rfl⟩ := hletter c hc
    exact letter_mem hv
  · intro hat
    rw [String.toList_ofList] at hat
    obtain ⟨v, hv, hne, hvat⟩ := hletter _ hat
    exact hne (congrArg Fin.val (at_eq_zero ⟨v, hv⟩ hvat))
  · rw [String.toList_ofList]
    exact getLast?_trimmed _

end SixBit

namespace Bits

/-- The field of `width` bits that spells a text, with blanks behind it and zeros behind these. -/
def spell (t : String) (blanks width : Nat) : List Bool :=
  (t.toList ++ List.replicate blanks ' ').flatMap (fun c => ofNat 6 (SixBit.code c)) ++
    List.replicate (width - 6 * (t.length + blanks)) false

/-- A group of six bits is a letter, or the end of the text. -/
theorem letters_six : ∀ {six : List Bool}, six.length = 6 → ∀ rest, letters (six ++ rest) =
    if UInt8.ofNat (value six) = 0 then [] else SixBit.letter (UInt8.ofNat (value six)) :: letters rest
  | [_, _, _, _, _, _], _, _ => rfl

/-- Zeros spell nothing. -/
theorem letters_zeros (n : Nat) : letters (List.replicate n false) = [] := by
  by_cases hn : n < 6
  · exact letters_of_short (by simpa using hn)
  · rw [show n = 6 + (n - 6) by omega, List.replicate_add, letters_six (by simp)]
    exact if_pos rfl

/-- Letters that are spelt are read. -/
theorem letters_spelt {text : List Char} (h : ∀ c ∈ text, c ∈ SixBit.characters ∧ c ≠ '@')
    (rest : List Bool) :
    letters (text.flatMap (fun c => ofNat 6 (SixBit.code c)) ++ rest) = text ++ letters rest := by
  induction text with
  | nil => rfl
  | cons c text ih =>
      obtain ⟨hmem, hne⟩ := h c (by simp)
      have hvalue : value (ofNat 6 (SixBit.code c)) = SixBit.code c :=
        value_ofNat (SixBit.code_lt hmem)
      have hlt := SixBit.code_lt hmem
      have hcode : UInt8.ofNat (SixBit.code c) ≠ 0 := by
        intro hzero
        have := congrArg UInt8.toNat hzero
        rw [UInt8.toNat_ofNat', Nat.mod_eq_of_lt (by omega)] at this
        exact SixBit.code_ne_zero hmem hne this
      rw [List.flatMap_cons, List.append_assoc, letters_six (length_ofNat ..), hvalue,
        if_neg hcode, SixBit.letter_code hmem, ih fun d hd => h d (List.mem_cons_of_mem _ hd)]
      rfl

variable {t : String} {blanks width : Nat}

/-- The field is as wide as it should be, if the text fits. -/
theorem length_spell (h : t.length + blanks ≤ width / 6) : (spell t blanks width).length = width := by
  have hcodes : ((t.toList ++ List.replicate blanks ' ').flatMap
      fun c => ofNat 6 (SixBit.code c)).length = 6 * (t.length + blanks) := by
    simp [List.length_flatMap, Nat.mul_comm, Nat.left_distrib, String.length_toList]
  rw [spell, List.length_append, hcodes, List.length_replicate]
  omega

/-- **The field spells the text.** -/
theorem letters_spell (ht : SixBit.Canonical t) :
    String.ofList (SixBit.trimmed (letters (spell t blanks width))) = t := by
  have hletters : ∀ c ∈ t.toList ++ List.replicate blanks ' ',
      c ∈ SixBit.characters ∧ c ≠ '@' := by
    intro c hc
    rcases List.mem_append.mp hc with hc | hc
    · exact ⟨ht.mem_characters c hc, fun hat => ht.not_at (hat ▸ hc)⟩
    · obtain rfl := (List.mem_replicate.mp hc).2
      decide
  rw [spell, letters_spelt hletters, letters_zeros, List.append_nil,
    SixBit.trimmed_append_blanks, SixBit.trimmed_self ht.not_blank, String.ofList_toList]

end Bits

open Bits

namespace Reader

/-- The codes of a field of text: the groups of six bits that it has room for. -/
def codes (r : Reader) (start width : Nat) : List Nat :=
  (List.range (width / 6)).map fun i => value (r.field (start + 6 * i) 6)

/-- The letters of the groups of six bits, up to the first group of zeros. -/
theorem letters_start (r : Reader) (start n : Nat) :
    r.letters start n =
      (((List.range n).map fun i => value (r.field (start + 6 * i) 6)).takeWhile (· ≠ 0)).map
        fun v => SixBit.letter (UInt8.ofNat v) := by
  induction n generalizing start with
  | zero => rfl
  | succ n ih =>
      have hlt := value_lt (r.field start 6)
      rw [length_field] at hlt
      have hzero : UInt8.ofNat (value (r.field start 6)) = 0 ↔ value (r.field start 6) = 0 := by
        rw [← UInt8.toNat_inj, UInt8.toNat_ofNat', Nat.mod_eq_of_lt (by omega)]
        rfl
      have hrest : ∀ i, start + 6 * (i + 1) = start + 6 + 6 * i := fun i => by omega
      rw [letters, code_window, List.range_succ_eq_map, List.map_cons, List.map_map]
      simp only [Function.comp_def, Nat.succ_eq_add_one, hrest, Nat.mul_zero, Nat.add_zero]
      by_cases h : value (r.field start 6) = 0
      · rw [if_pos (hzero.mpr h), List.takeWhile_cons_of_neg (by simpa using h)]
        rfl
      · rw [if_neg (mt hzero.mp h), List.takeWhile_cons_of_pos (by simpa using h), List.map_cons, ih]

/-- A field of text is read as what its codes spell. -/
theorem text_codes (r : Reader) {width : Nat} (hroom : r.offset + width ≤ r.bits) :
    ((text width).run r).1 = .ok (String.ofList (SixBit.trimmed
      (((r.codes r.offset width).takeWhile (· ≠ 0)).map
        fun v => SixBit.letter (UInt8.ofNat v)))) := by
  have hletters := r.letters_field r.offset (width / 6) (Nat.mod_lt width (by decide))
  rw [Nat.div_add_mod] at hletters
  rw [text_run, answer, if_pos hroom, ← hletters, letters_start, codes]

/-- **A field that spells a text is read as it**, wherever it stands. -/
theorem reads_text {t : String} {blanks width : Nat} (ht : SixBit.Canonical t)
    (hwidth : t.length + blanks ≤ width / 6) : Reads (text width) (spell t blanks width) t := by
  intro r rest hr
  have hlength := length_spell hwidth
  have hanswer := hr.answer_eq fun bits => String.ofList (SixBit.trimmed (Bits.letters bits))
  rw [hlength] at hanswer
  rw [text_run, hanswer, letters_spell ht, hlength]

/-- The codes of a field have six bits. -/
theorem codes_lt (r : Reader) (start width : Nat) : ∀ v ∈ r.codes start width, v < 64 := by
  intro v hv
  obtain ⟨i, -, rfl⟩ := List.mem_map.mp hv
  have hlt := value_lt (r.field (start + 6 * i) 6)
  rwa [length_field] at hlt

theorem length_codes (r : Reader) (start width : Nat) : (r.codes start width).length = width / 6 := by
  simp [codes]

/-- **Text fields are canonical.**  From whatever bits, a field among the valid bits is read as the
letters of its groups of six bits, up to the first group of zeros and without the blanks at the end;
and that is a canonical text with no more letters than the field has room for.  Each such text is
read back from any place, filled up with zeros at once or with blanks first. -/
theorem text_canonical (p : Payload) :
    (∀ start width : Nat, start + width ≤ p.bits →
      let codes := (List.range (width / 6)).map fun i => value (p.reader.field (start + 6 * i) 6)
      ∃ t, ((text width).run (p.readerAt start)).1 = .ok t ∧
        t.toList = ((codes.takeWhile (· ≠ 0)).map fun v =>
          SixBit.characters.getD v '@').rdropWhile (· == ' ') ∧
        SixBit.Canonical t ∧ t.length ≤ width / 6) ∧
    ∀ (t : String) (blanks width : Nat) (lead rest : List Bool), SixBit.Canonical t →
      t.length + blanks ≤ width / 6 → lead.length + width + rest.length ≤ Payload.capacity →
        let q := (p.carry (lead ++ (spell t blanks width ++ rest))).1
        ((text width).run (q.readerAt lead.length)).1 = .ok t := by
  constructor
  · intro start width hroom codes
    have hcodes : ∀ v ∈ codes, v < 64 := p.reader.codes_lt start width
    have htaken : ∀ v ∈ codes.takeWhile (· ≠ 0), v < 64 := fun v hv =>
      hcodes v ((List.takeWhile_prefix _).subset hv)
    refine ⟨_, (p.readerAt start).text_codes hroom, ?_, SixBit.canonical_trimmed hcodes, ?_⟩
    · rw [String.toList_ofList, SixBit.trimmed_eq]
      exact congrArg _ (List.map_congr_left fun v hv => SixBit.letter_eq_getD (htaken v hv))
    · rw [String.length_ofList]
      refine Nat.le_trans (SixBit.length_trimmed_le _) ?_
      rw [List.length_map, ← p.reader.length_codes start width]
      exact (List.takeWhile_prefix _).length_le
  · intro t blanks width lead rest ht hwidth hroom
    have hlength : (lead ++ (spell t blanks width ++ rest)).length ≤ Payload.capacity := by
      rw [List.length_append, List.length_append, length_spell hwidth]
      omega
    exact (reads_text ht hwidth).run_fst (p.faces_carry lead _ hlength)

/-- A name with a blank in it, in a field of 62 bits behind three others: with two more blanks and
then zeros it is read as it is, and a field of no letters at all is read as the empty text. -/
theorem text_canonical_name :
    let q := (Payload.empty.carry ([true, false, true] ++ (spell "SEA CAT" 2 62 ++ []))).1
    ((text 62).run (q.readerAt 3)).1 = .ok "SEA CAT" ∧
      ∃ t, ((text 5).run (q.readerAt 3)).1 = .ok t ∧ t.toList = [] := by
  intro q
  have hmem : "SEA CAT".toList.all (· ∈ SixBit.characters) = true := by decide
  have hcanonical : SixBit.Canonical "SEA CAT" :=
    ⟨fun c hc => of_decide_eq_true (List.all_eq_true.mp hmem c hc), by decide, by decide⟩
  have hname := (text_canonical .empty).2 "SEA CAT" 2 62 [true, false, true] [] hcanonical
    (by decide) (by decide)
  have hbits : q.bits = 65 := (Payload.empty.carry_eq (by decide)).2.1
  obtain ⟨t, ht, hletters, -⟩ := (text_canonical q).1 3 5 (by omega)
  exact ⟨hname, t, ht, hletters⟩

end Reader

end Ais
