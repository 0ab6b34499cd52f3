import Ais.Assembly
import Ais.Proofs.Message.Joined

/-!
# Assembly — what one slot does

A slot that takes a sentence does one of four things (`Slot.Takes`): it keeps the sentence after
those it holds, or joins them all, or throws away what it holds and starts again with the sentence,
or throws the sentence away as well.  `take_takes` says that these are all, for any slot and any
sentence that is one of two to nine; nothing is said of what the slot holds.
-/

namespace Ais

/-- The sentence is one of two to nine. -/
structure Sentence.IsPart (s : Sentence) : Prop where
  number_pos : 1 ≤ s.number.toNat
  number_le  : s.number.toNat ≤ s.count.toNat
  count_le   : s.count.toNat ≤ Limits.sentencesPerMessage
  count_ne   : s.count.toNat ≠ 1

namespace Slot

theorem accepts_iff {slot : Slot} {s : Sentence} :
    slot.accepts s = true ↔
      s.number.toNat = slot.held.length + 1 ∧ (slot.held = [] ∨ s.count = slot.count) := by
  simp [accepts, isIdle, index]

/-- From `slot`, by the sentence `s`, to `t`. -/
inductive Takes (slot : Slot) (s : Sentence) (t : Slot) : Outcome → Prop where
  | kept (accepted : slot.accepts s = true) (more : s.number ≠ s.count)
      (held : t.held = slot.held ++ [s]) (count : t.count = s.count) : Takes slot s t .pending
  | joined (accepted : slot.accepts s = true) (last : s.number = s.count)
      (held : t.held = []) (count : t.count = 0) : Takes slot s t .complete
  | restarted (broken : slot.accepts s = false) (first : s.number.toNat = 1)
      (held : t.held = [s]) (count : t.count = s.count) : Takes slot s t (.discarded slot.index)
  | refused (broken : slot.accepts s = false) (later : s.number.toNat ≠ 1)
      (held : t.held = []) (count : t.count = 0) : Takes slot s t (.discarded (slot.index + 1))

/-- There is storage for a sentence that is accepted. -/
theorem store?_ok {slot : Slot} {s : Sentence} (hs : s.IsPart) (h : slot.accepts s = true) :
    ∃ t, slot.store? s = some t ∧ t.held = slot.held ++ [s] ∧ t.count = s.count := by
  obtain ⟨hnumber, hcount⟩ := accepts_iff.mp h
  have hsize := slot.size_eq
  have hle := hs.number_le
  have hle' := hs.count_le
  unfold store?
  split
  · rename_i hstale
    rw [hstale, List.length_nil] at hsize
    omega
  · refine ⟨_, rfl, rfl, ?_⟩
    rcases hcount with hidle | hcount
    · simp [isIdle, index, hidle]
    · simp [hcount]

/-- A sentence once kept is the last one of its message, or it is not. -/
theorem isComplete_iff {t : Slot} {s : Sentence} {held : List Sentence}
    (hheld : t.held = held ++ [s]) (hcount : t.count = s.count)
    (hnumber : s.number.toNat = held.length + 1) : t.isComplete = true ↔ s.number = s.count := by
  simp only [isComplete, isIdle, index, hheld, hcount, List.length_append, List.length_singleton,
    ← hnumber, Bool.and_eq_true, beq_iff_eq, UInt8.toNat_inj]
  simp [hnumber]

/-- **What a slot does with a sentence.** -/
theorem take_takes (slot : Slot) (m : Message) {s : Sentence} (hs : s.IsPart) :
    ∃ t m' o, slot.take m s = (t, m', o) ∧ slot.Takes s t o ∧
      (o = .complete → m'.Joins (slot.held ++ [s])) := by
  have hle := hs.number_le
  have hle' := hs.count_le
  cases haccepts : slot.accepts s with
  | true =>
      obtain ⟨t, hstore, hheld, hcount⟩ := store?_ok hs haccepts
      have hnumber := (accepts_iff.mp haccepts).1
      have hcomplete := isComplete_iff hheld hcount hnumber
      by_cases hlast : s.number = s.count
      · obtain ⟨m', hm', hjoins⟩ := m.ofSentences_ok t.held
          (by simp only [hheld, List.length_append, List.length_singleton]; omega)
        refine ⟨t.reset, m', .complete, ?_, .joined haccepts hlast rfl rfl, fun _ => hheld ▸ hjoins⟩
        simp [take, haccepts, hstore, hcomplete.mpr hlast, hm']
      · refine ⟨t, m, .pending, ?_, .kept haccepts hlast hheld hcount, by simp⟩
        have : t.isComplete = false := by simpa using mt hcomplete.mp hlast
        simp [take, haccepts, hstore, this]
  | false =>
      by_cases hfirst : s.number.toNat = 1
      · have hreset : slot.reset.accepts s = true := accepts_iff.mpr ⟨hfirst, .inl rfl⟩
        obtain ⟨t, hstore, hheld, hcount⟩ := store?_ok hs hreset
        have hlast : s.number ≠ s.count := fun e => hs.count_ne (e ▸ hfirst)
        have hopen : t.isComplete = false := by
          simpa using mt (isComplete_iff hheld hcount hfirst).mp hlast
        -- an idle slot would have taken the first sentence
        have hindex : slot.index ≠ 0 := fun h => by
          have hidle : slot.held = [] := List.eq_nil_of_length_eq_zero h
          rw [accepts_iff.mpr ⟨by simp [hfirst, hidle], .inl hidle⟩] at haccepts
          cases haccepts
        refine ⟨t, m, _, ?_, .restarted haccepts hfirst hheld hcount, by simp⟩
        simp [take, haccepts, hreset, hstore, hopen, hindex]
      · have hreset : slot.reset.accepts s = false := by
          rw [← Bool.not_eq_true, accepts_iff]
          exact fun h => hfirst h.1
        refine ⟨slot.reset, m, _, ?_, .refused haccepts hfirst rfl rfl, by simp⟩
        simp [take, haccepts, hreset]

namespace Takes

variable {slot t : Slot} {s : Sentence} {o : Outcome}

/-- The first sentence of a message is kept alone, whatever the slot held. -/
theorem of_first (h : slot.Takes s t o) (hs : s.IsPart) (hfirst : s.number.toNat = 1) :
    t.held = [s] ∧ t.count = s.count ∧ o ≠ .complete := by
  cases h with
  | kept accepted more held count =>
      have hnumber := (accepts_iff.mp accepted).1
      have hidle : slot.held = [] := List.eq_nil_of_length_eq_zero (by omega)
      rw [hidle, List.nil_append] at held
      exact ⟨held, count, by simp⟩
  | joined accepted last held count => exact absurd (last ▸ hfirst) hs.count_ne
  | restarted broken first held count => exact ⟨held, count, by simp⟩
  | refused broken later held count => exact absurd hfirst later

/-- The next sentence of a message joins the others, and completes the message if it is the last. -/
theorem of_accepts (h : slot.Takes s t o) (ha : slot.accepts s = true) :
    (o = .complete ↔ s.number = s.count) ∧
      (s.number ≠ s.count → t.held = slot.held ++ [s] ∧ t.count = s.count) := by
  cases h with
  | kept accepted more held count => exact ⟨by simpa using more, fun _ => ⟨held, count⟩⟩
  | joined accepted last held count => exact ⟨by simpa using last, fun h => absurd last h⟩
  | restarted broken first held count => rw [ha] at broken; cases broken
  | refused broken later held count => rw [ha] at broken; cases broken

end Takes

end Slot

end Ais
