import Ais.Proofs.Assembly.Table
import Ais.Proofs.Checksum
import Ais.Proofs.Sentence.Grammar

/-!
# Sentences — one checksum for all

Three places ask whether the checksum of a sentence holds: the question itself, the check that says
what is wrong, and the table before it takes the sentence.  They agree, and what they ask is whether
the exclusive or of the bytes before the `*` is the number that the two digits behind it write
(`checks_agree`).  How the bytes lie in storage does not matter.
-/

namespace Ais

namespace Sentence

variable {s : Sentence}

/-- The checksum holds where the bytes before the `*` have it. -/
theorem isValid_iff_xor :
    s.isValid = true ↔ Checksum.xor (Checksum.body s.text.bytes) = s.checksum := by
  rw [isValid, computed, Checksum.compute_eq_xor, beq_iff_eq]

/-- A sentence that does not pass is told both checksums. -/
theorem validate_eq (s : Sentence) :
    s.validate = if Checksum.xor (Checksum.body s.text.bytes) = s.checksum then .ok ()
      else .error (.checksum s.checksum (Checksum.xor (Checksum.body s.text.bytes))) := by
  rw [validate, computed, Checksum.compute_eq_xor]
  by_cases h : Checksum.xor (Checksum.body s.text.bytes) = s.checksum
  · rw [if_pos h, if_pos (isValid_iff_xor.mpr h)]
  · rw [if_neg h, if_neg (mt isValid_iff_xor.mp h)]

/-- The table has nothing against the checksum of a sentence that passes. -/
theorem process_ne_badChecksum (hs : s.HasForm) (hv : s.isValid = true) (a : Assembly)
    (m : Message) : (a.process m s).2.2 ≠ .badChecksum := by
  obtain ⟨a', m', o, hprocess, hprocesses⟩ := a.process_processes m hs
  rw [hprocess]
  rintro rfl
  cases hprocesses with
  | invalid invalid => cases hv.symm.trans invalid
  | part _ _ _ takes => cases takes

/-- **All checks of a sentence are one.**  By words and from whatever alignment, or byte by byte, the
exclusive or of bytes is the same.  So a sentence that was read is valid, is passed, and is let into
the table exactly where the exclusive or of its bytes before the `*` is the number of the two digits
behind it; otherwise the fault names both, and the table stays as it is. -/
theorem checks_agree :
    (∀ (order : Checksum.ByteOrder) (head : Nat) (bytes : List UInt8),
      Checksum.wide order head bytes = Checksum.xor bytes) ∧
    ∀ (talkers : Talkers) (line : List UInt8) (old s : Sentence) (size : Nat),
      old.parse talkers line = (s, .ok size) →
        ∃ body high low, line.take size = body ++ [Ascii.asterisk, high, low] ∧
          s.checksum.toNat = 16 * Ascii.hexValue high + Ascii.hexValue low ∧
          (∀ order head, Checksum.wide order head (Checksum.body s.text.bytes) = Checksum.xor body) ∧
          (s.isValid = true ↔ Checksum.xor body = s.checksum) ∧
          s.validate = (if Checksum.xor body = s.checksum then .ok ()
            else .error (.checksum s.checksum (Checksum.xor body))) ∧
          ∀ (a : Assembly) (m : Message),
            if Checksum.xor body = s.checksum then (a.process m s).2.2 ≠ .badChecksum
            else a.process m s = (a, m, .badChecksum) := by
  refine ⟨Checksum.wide_eq_xor, fun talkers line old s size h => ?_⟩
  obtain ⟨f, hf, hs, rfl, rest, -, rfl⟩ := parse_inv h
  have hbody : Checksum.body s.text.bytes = f.body := by
    rw [hs.text, Checksum.body]
    simp [Form.text, Checksum.suffixBytes]
  have hvalid : s.isValid = true ↔ Checksum.xor f.body = s.checksum := hbody ▸ isValid_iff_xor
  refine ⟨f.body, f.high, f.low, by rw [List.take_left]; rfl, ?_, ?_, hvalid, ?_, fun a m => ?_⟩
  · exact hs.checksum ▸ (Form.grammatical_iff.mpr hf).checksum_eq
  · intro order head
    rw [Checksum.wide_eq_xor, hbody]
  · rw [s.validate_eq, hbody]
  · by_cases hxor : Checksum.xor f.body = s.checksum
    · rw [if_pos hxor]
      exact process_ne_badChecksum ⟨talkers, f, hf, hs⟩ (hvalid.mpr hxor) a m
    · rw [if_neg hxor]
      exact a.process_of_invalid m (Bool.eq_false_iff.mpr (mt hvalid.mp hxor))

/-- One sentence passes and another, whose last digit is wrong, does not; both are read. -/
theorem checks_agree_two :
    let good := empty.parse .any (Ascii.ofString "AIVDM,1,1,,A,w0h,2*0B\n")
    let bad := empty.parse .any (Ascii.ofString "AIVDM,1,1,,A,w0h,2*0C\n")
    good.2 = .ok 21 ∧ good.1.validate = .ok () ∧ bad.2 = .ok 21 ∧
      bad.1.validate = .error (.checksum 12 11) ∧
      ∀ (a : Assembly) (m : Message),
        (a.process m good.1).2.2 ≠ .badChecksum ∧ a.process m bad.1 = (a, m, .badChecksum) := by
  intro good bad
  have hgood : good.2 = .ok 21 ∧ good.1.validate = .ok () := by decide +kernel
  have hbad : bad.2 = .ok 21 ∧ bad.1.validate = .error (.checksum 12 11) := by decide +kernel
  refine ⟨hgood.1, hgood.2, hbad.1, hbad.2, fun a m => ⟨?_, ?_⟩⟩
  · obtain ⟨body, -, -, -, -, -, -, hvalidate, hgate⟩ :=
      checks_agree.2 .any _ empty good.1 21 (Prod.ext rfl hgood.1)
    by_cases hxor : Checksum.xor body = good.1.checksum
    · exact (if_pos hxor).mp (hgate a m)
    · rw [if_neg hxor, hgood.2] at hvalidate
      cases hvalidate
  · obtain ⟨body, -, -, -, -, -, -, hvalidate, hgate⟩ :=
      checks_agree.2 .any _ empty bad.1 21 (Prod.ext rfl hbad.1)
    by_cases hxor : Checksum.xor body = bad.1.checksum
    · rw [if_pos hxor, hbad.2] at hvalidate
      cases hvalidate
    · exact (if_neg hxor).mp (hgate a m)

end Sentence

end Ais
