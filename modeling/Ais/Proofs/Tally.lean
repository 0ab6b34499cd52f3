import Mathlib.Algebra.Group.Basic
import Ais.Tally

/-!
# Tally — counts add up

Tallies are added counter by counter, so what several parts have counted does not depend on the
order in which they counted it.  Whatever is counted is added to what has been.  `records` and `kept`
are what has been counted of records, and of those that are not skipped; `intake` is what has been
counted of bytes and lines.
-/

namespace Ais.Tally

instance : Zero Tally := ⟨zero⟩

instance : Add Tally where
  add s t := ⟨s.bytes + t.bytes, s.sentences + t.sentences, s.malformed + t.malformed,
    s.checksumFailures + t.checksumFailures, s.discarded + t.discarded, s.messages + t.messages,
    s.payloads + t.payloads, s.emptyPayloads + t.emptyPayloads⟩

theorem add_def (s t : Tally) :
    s + t = ⟨s.bytes + t.bytes, s.sentences + t.sentences, s.malformed + t.malformed,
      s.checksumFailures + t.checksumFailures, s.discarded + t.discarded, s.messages + t.messages,
      s.payloads + t.payloads, s.emptyPayloads + t.emptyPayloads⟩ := rfl

theorem zero_def : (0 : Tally) = ⟨0, 0, 0, 0, 0, 0, 0, 0⟩ := rfl

instance : AddCommMonoid Tally where
  add_assoc s t u := by simp only [add_def, UInt64.add_assoc]
  zero_add t := by simp only [add_def, zero_def, UInt64.zero_add]
  add_zero t := by simp only [add_def, zero_def, UInt64.add_zero]
  add_comm s t := by simp only [add_def, UInt64.add_comm]
  nsmul := nsmulRec

/-! ### Counting is adding -/

variable (t : Tally)

theorem addSentence_eq : t.addSentence = t + addSentence 0 := by
  simp [addSentence, add_def, zero_def]

theorem addMalformed_eq : t.addMalformed = t + addMalformed 0 := by
  simp [addMalformed, add_def, zero_def]

theorem addChecksumFailure_eq : t.addChecksumFailure = t + addChecksumFailure 0 := by
  simp [addChecksumFailure, add_def, zero_def]

theorem addDiscarded_eq (n : Nat) : t.addDiscarded n = t + addDiscarded 0 n := by
  simp [addDiscarded, add_def, zero_def]

theorem addMessage_eq : t.addMessage = t + addMessage 0 := by
  simp [addMessage, add_def, zero_def]

theorem addPayload_eq : t.addPayload = t + addPayload 0 := by
  simp [addPayload, add_def, zero_def]

theorem addEmptyPayload_eq : t.addEmptyPayload = t + addEmptyPayload 0 := by
  simp [addEmptyPayload, add_def, zero_def]

/-! ### Records without bytes -/

/-- What has been counted but for bytes. -/
def records (t : Tally) : Tally := { t with bytes := 0 }

/-- Records are added up on their own, without the bytes. -/
theorem records_add (s t : Tally) : (s + t).records = s.records + t.records := by
  simp [records, add_def]

@[simp] theorem records_zero : (0 : Tally).records = 0 := rfl

@[simp] theorem records_addBytes (n : Nat) : (t.addBytes n).records = t.records := rfl

/-! ### Records that are kept -/

/-- So many sentences, and nothing else. -/
def ofSentences (k : Nat) : Tally := ⟨0, .ofNat k, 0, 0, 0, 0, 0, 0⟩

/-- Sentences counted one after the other may be counted at once. -/
theorem ofSentences_add (k l : Nat) : ofSentences (k + l) = ofSentences k + ofSentences l := by
  simp [ofSentences, add_def, UInt64.ofNat_add]

/-- What has been counted but for bytes and skipped lines. -/
def kept (t : Tally) : Tally := { t with bytes := 0, malformed := 0 }

/-- So are the records that are kept. -/
theorem kept_add (s t : Tally) : (s + t).kept = s.kept + t.kept := by
  simp [kept, add_def]

@[simp] theorem kept_addBytes (n : Nat) : (t.addBytes n).kept = t.kept := rfl

/-! ### Bytes and lines -/

/-- What is counted of bytes and lines when they are taken in. -/
def intake (t : Tally) : Tally :=
  ⟨t.bytes, t.sentences, t.malformed, 0, 0, 0, 0, 0⟩

/-- Bytes are counted by the intake. -/
@[simp] theorem intake_addBytes (n : Nat) : (t.addBytes n).intake = t.intake.addBytes n := rfl

end Ais.Tally
