import Ais.Proofs.Assembly.Slot
import Ais.Proofs.Sentence.Record

/-!
# Assembly — what the table does

A sentence whose checksum does not hold leaves the table as it is; one that is a message of its own
passes it by and is handed out at once; any other goes to the slot of its message id
(`process_processes`), and no other slot hears of it (`slots_process`).  `feed` is the table after a
run of sentences, each offered with a message record to fill.
-/

namespace Ais

/-- The sentence goes to the slot `id` of the table. -/
def Sentence.goesTo (id : Nat) (s : Sentence) : Bool := s.isValid && !s.isSingle && s.slot == id

theorem Sentence.goesTo_iff {id : Nat} {s : Sentence} :
    s.goesTo id = true ↔ s.isValid = true ∧ s.isSingle = false ∧ s.slot = id := by
  simp [goesTo, and_assoc]

/-- A sentence that has a form and is no message of its own is one of two to nine. -/
theorem Sentence.HasForm.isPart {s : Sentence} (h : s.HasForm) (hs : s.isSingle = false) :
    s.IsPart := by
  obtain ⟨talkers, f, hf, hholds⟩ := h
  refine ⟨?_, ?_, ?_, ?_⟩
  · rw [hholds.number]
    exact Nat.pos_of_ne_zero fun e => hf.number_pos (UInt8.toNat_inj.mp e)
  · rw [hholds.number, hholds.count]
    exact UInt8.le_iff_toNat_le.mp hf.number_le
  · rw [hholds.count]
    exact hf.count_le
  · intro e
    have : s.count = 1 := UInt8.toNat_inj.mp e
    simp [isSingle, this] at hs

theorem Sentence.HasForm.slot_lt {s : Sentence} (h : s.HasForm) : s.slot < Limits.slots := by
  obtain ⟨talkers, f, hf, hholds⟩ := h
  exact hholds.slot_lt hf

namespace Assembly

theorem process_of_invalid (a : Assembly) (m : Message) {s : Sentence} (h : s.isValid = false) :
    a.process m s = (a, m, .badChecksum) := by
  simp [process, h]

theorem process_of_single (a : Assembly) (m : Message) {s : Sentence} (hv : s.isValid = true)
    (hs : s.isSingle = true) :
    ∃ m', a.process m s = (a, m', .complete) ∧ m'.Joins [s] := by
  obtain ⟨m', hm', hjoins⟩ := m.ofSingle_ok s
  exact ⟨m', by simp [process, hv, hs, hm'], hjoins⟩

theorem process_of_part (a : Assembly) (m : Message) {s : Sentence} (hv : s.isValid = true)
    (hs : s.isSingle = false) {id : Nat} (hslot : s.slot = id) (hid : id < Limits.slots) :
    a.process m s = (⟨a.slots.set id (a.slots[id].take m s).1⟩, (a.slots[id].take m s).2) := by
  subst hslot
  simp [process, hv, hs, hid]

/-- From the table `a`, by the sentence `s`, to another, with what is in the message then. -/
inductive Processes (a : Assembly) (s : Sentence) : Assembly → Message → Outcome → Prop where
  | invalid (valid : s.isValid = false) (m : Message) : Processes a s a m .badChecksum
  | single {m : Message} (valid : s.isValid = true) (single : s.isSingle = true)
      (joins : m.Joins [s]) : Processes a s a m .complete
  | part {t : Slot} {m : Message} {o : Outcome} (valid : s.isValid = true)
      (single : s.isSingle = false) (slot_lt : s.slot < Limits.slots)
      (takes : a.slots[s.slot].Takes s t o)
      (joins : o = .complete → m.Joins (a.slots[s.slot].held ++ [s])) :
      Processes a s ⟨a.slots.set s.slot t⟩ m o

/-- **What a table does with a sentence.** -/
theorem process_processes (a : Assembly) (m : Message) {s : Sentence} (hs : s.HasForm) :
    ∃ a' m' o, a.process m s = (a', m', o) ∧ a.Processes s a' m' o := by
  cases hv : s.isValid with
  | false => exact ⟨a, m, _, process_of_invalid a m hv, .invalid hv m⟩
  | true =>
      cases hsingle : s.isSingle with
      | true =>
          obtain ⟨m', hm', hjoins⟩ := process_of_single a m hv hsingle
          exact ⟨a, m', _, hm', .single hv hsingle hjoins⟩
      | false =>
          have hslot := hs.slot_lt
          obtain ⟨t, m', o, htake, htakes, hjoins⟩ :=
            a.slots[s.slot].take_takes m (hs.isPart hsingle)
          refine ⟨_, m', o, ?_, .part hv hsingle hslot htakes hjoins⟩
          rw [process_of_part a m hv hsingle rfl hslot, htake]

/-- **A sentence touches its own slot alone**, and only where its checksum holds and it is not a
message of its own. -/
theorem slots_process (a : Assembly) (m : Message) (s : Sentence) {id : Nat}
    (hid : id < Limits.slots) :
    (a.process m s).1.slots[id] =
      if s.goesTo id then (a.slots[id].take m s).1 else a.slots[id] := by
  cases hv : s.isValid with
  | false => simp [process_of_invalid a m hv, Sentence.goesTo, hv]
  | true =>
      cases hs : s.isSingle with
      | true =>
          obtain ⟨m', hm', -⟩ := process_of_single a m hv hs
          simp [hm', Sentence.goesTo, hs]
      | false =>
          by_cases h : s.slot < Limits.slots
          · rw [process_of_part a m hv hs rfl h]
            by_cases e : s.slot = id
            · subst e
              simp [Sentence.goesTo, hv, hs]
            · simp [Sentence.goesTo, hv, hs, e]
          · -- there is no such slot, and the sentence goes nowhere
            have : s.slot ≠ id := fun e => h (e ▸ hid)
            simp [process, hv, hs, h, Sentence.goesTo, this]

/-- The table after a run of sentences. -/
def feed (a : Assembly) (run : List (Message × Sentence)) : Assembly :=
  run.foldl (fun a x => (a.process x.1 x.2).1) a

@[simp] theorem feed_nil (a : Assembly) : a.feed [] = a := rfl

@[simp] theorem feed_cons (a : Assembly) (x : Message × Sentence)
    (run : List (Message × Sentence)) :
    a.feed (x :: run) = (a.process x.1 x.2).1.feed run := rfl

/-- Sentences that go elsewhere leave a slot alone. -/
theorem slots_feed {id : Nat} (hid : id < Limits.slots) (a : Assembly)
    {run : List (Message × Sentence)} (h : ∀ x ∈ run, x.2.goesTo id = false) :
    (a.feed run).slots[id] = a.slots[id] := by
  induction run generalizing a with
  | nil => rfl
  | cons x run ih =>
      have hx : x.2.goesTo id = false := h x (by simp)
      rw [feed_cons, ih _ fun y hy => h y (by simp [hy]), slots_process _ _ _ hid, hx]
      rfl

/-! ### The traffic of a slot -/

/-- The sentences of a run that go to the slot `id`. -/
def traffic (id : Nat) (run : List (Message × Sentence)) : List Sentence :=
  (run.map Prod.snd).filter (·.goesTo id)

@[simp] theorem traffic_nil (id : Nat) : traffic id [] = [] := rfl

theorem traffic_cons (id : Nat) (x : Message × Sentence) (run : List (Message × Sentence)) :
    traffic id (x :: run) =
      if x.2.goesTo id then x.2 :: traffic id run else traffic id run := by
  rw [traffic, List.map_cons, List.filter_cons]
  rfl

/-- **What each step of a slot keeps, a run keeps.**  `P` may speak of all that went to the slot. -/
theorem feed_induction {id : Nat} (hid : id < Limits.slots) {P : List Sentence → Slot → Prop}
    (hstep : ∀ {history : List Sentence} {slot t : Slot} {s : Sentence} {o : Outcome}, s.IsPart →
      s.goesTo id = true → slot.Takes s t o → P history slot → P (history ++ [s]) t)
    (run : List (Message × Sentence)) (hrun : ∀ x ∈ run, x.2.IsRead) {a : Assembly}
    (history : List Sentence) (h : P history a.slots[id]) :
    P (history ++ traffic id run) (a.feed run).slots[id] := by
  induction run generalizing a history with
  | nil => simpa using h
  | cons x run ih =>
      have hx := hrun x (by simp)
      have hslot := slots_process a x.1 x.2 hid
      have hmore : ∀ y ∈ run, y.2.IsRead := fun y hy => hrun y (by simp [hy])
      cases hgoes : x.2.goesTo id with
      | false =>
          rw [hgoes, if_neg (by simp)] at hslot
          have := ih hmore history (hslot ▸ h)
          simpa [traffic_cons, hgoes] using this
      | true =>
          have hpart := hx.hasForm.isPart (Sentence.goesTo_iff.mp hgoes).2.1
          obtain ⟨t, m', o, htake, htakes, -⟩ := a.slots[id].take_takes x.1 hpart
          simp only [hgoes, if_true, htake] at hslot
          have := ih hmore _ (hslot.symm ▸ hstep hpart hgoes htakes h)
          simpa [traffic_cons, hgoes] using this

end Assembly

end Ais
