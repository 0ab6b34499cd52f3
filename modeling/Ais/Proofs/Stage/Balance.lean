import Mathlib.Algebra.GroupWithZero.Nat
import Mathlib.Data.List.Perm.Basic
import Ais.Proofs.Stage.Conversion

/-!
# Conversions — what becomes of each record

A sentence given to a table waits there (`Assembly.held`) or is spent: joined in a message, refused
for its checksum, or thrown away (`Spent`).  A message is unpacked, or has no bits because its
sentences carry no characters (`Payload.ofMessage_eq_zero_iff`).  No record goes two ways and none
goes missing, and each way has its counter.

* `Slot.Takes.spends`, `Assembly.process_spends`: one sentence moves as many as it has counted.
* `Conversion.Yields.spends`, `Conversion.Yields.unpacks`: so do all of a run.
-/

namespace Ais

/-- The sentences that wait in the slots of the table. -/
def Assembly.held (a : Assembly) : List Sentence := a.slots.toList.flatMap (·.held)

@[simp] theorem Assembly.held_empty : Assembly.empty.held = [] := by
  decide

/-- As many sentences wait as the slots say. -/
theorem Assembly.length_held (a : Assembly) :
    a.held.length = (a.slots.toList.map Slot.index).sum := List.length_flatMap

/-- A slot that changes brings its sentences, and takes those away that were there. -/
theorem Assembly.held_set (a : Assembly) {id : Nat} (hid : id < Limits.slots) (slot : Slot) :
    (a.slots[id].held ++ (⟨a.slots.set id slot⟩ : Assembly).held).Perm (slot.held ++ a.held) := by
  have hlength : id < a.slots.toList.length := by rwa [Vector.length_toList]
  obtain ⟨before, after, hslots, -, hset⟩ := @List.exists_of_set _ id slot _ hlength
  have hslot : a.slots.toList[id] = a.slots[id] := Vector.getElem_toList hlength
  simp only [Assembly.held, Vector.toList_set, hset]
  rw [hslots, hslot]
  simp only [List.flatMap_append, List.flatMap_cons]
  refine List.perm_iff_count.mpr fun s => ?_
  simp only [List.count_append]
  omega

/-! ### Sentences -/

/-- Sentences that a table is done with. -/
structure Spent where
  /-- Those of messages, message by message. -/
  joined  : List (List Sentence)
  /-- Those whose checksum does not hold. -/
  invalid : List Sentence
  /-- Those thrown away. -/
  lost    : List Sentence
  joined_ne_nil : ∀ group ∈ joined, group ≠ []
  not_isValid   : ∀ s ∈ invalid, s.isValid = false

namespace Spent

def none : Spent := ⟨[], [], [], by simp, by simp⟩

/-- Thrown away, all of them. -/
def ofLost (ss : List Sentence) : Spent := ⟨[], [], ss, by simp, by simp⟩

/-- One message. -/
def ofJoined (group : List Sentence) (h : group ≠ []) : Spent := ⟨[group], [], [], by simpa, by simp⟩

def ofInvalid (s : Sentence) (h : s.isValid = false) : Spent := ⟨[], [s], [], by simp, by simpa⟩

instance : Append Spent where
  append x y :=
    { joined        := x.joined ++ y.joined
      invalid       := x.invalid ++ y.invalid
      lost          := x.lost ++ y.lost
      joined_ne_nil := List.forall_mem_append.mpr ⟨x.joined_ne_nil, y.joined_ne_nil⟩
      not_isValid   := List.forall_mem_append.mpr ⟨x.not_isValid, y.not_isValid⟩ }

/-- The sentences, whatever became of them. -/
def all (x : Spent) : List Sentence := x.joined.flatten ++ x.invalid ++ x.lost

/-- What counts them. -/
def tally (x : Spent) : Tally :=
  ⟨0, 0, 0, .ofNat x.invalid.length, .ofNat x.lost.length, .ofNat x.joined.length, 0, 0⟩

@[simp] theorem joined_append (x y : Spent) : (x ++ y).joined = x.joined ++ y.joined := rfl

@[simp] theorem invalid_append (x y : Spent) : (x ++ y).invalid = x.invalid ++ y.invalid := rfl

@[simp] theorem lost_append (x y : Spent) : (x ++ y).lost = x.lost ++ y.lost := rfl

theorem all_append (x y : Spent) : (x ++ y).all.Perm (x.all ++ y.all) := by
  refine List.perm_iff_count.mpr fun s => ?_
  simp only [all, joined_append, invalid_append, lost_append, List.flatten_append,
    List.count_append]
  omega

theorem tally_append (x y : Spent) : (x ++ y).tally = x.tally + y.tally := by
  simp [tally, Tally.add_def, UInt64.ofNat_add]

/-- A message has at least one sentence. -/
theorem length_joined_le (x : Spent) : x.joined.length ≤ x.joined.flatten.length := by
  obtain ⟨joined, _, _, hne, _⟩ := x
  induction joined with
  | nil => exact Nat.le_refl 0
  | cons group joined ih =>
      obtain ⟨hgroup, hjoined⟩ := List.forall_mem_cons.mp hne
      have hpos := List.length_pos_iff.mpr hgroup
      have hle : joined.length ≤ joined.flatten.length := ih hjoined
      rw [List.flatten_cons, List.length_append, List.length_cons]
      omega

theorem tally_ofLost (ss : List Sentence) : (ofLost ss).tally = Tally.addDiscarded 0 ss.length := by
  simp [ofLost, tally, Tally.addDiscarded, Tally.zero_def]

end Spent

/-- **What a slot does with a sentence accounts for it and for those it held.** -/
theorem Slot.Takes.spends {slot t : Slot} {s : Sentence} {o : Outcome} (h : slot.Takes s t o) :
    ∃ spent : Spent, (s :: slot.held).Perm (t.held ++ spent.all) ∧ o.tally = spent.tally ∧
      spent.joined = if o.isComplete then [slot.held ++ [s]] else [] := by
  have hconcat : (s :: slot.held).Perm (slot.held ++ [s]) := (List.perm_append_singleton _ _).symm
  cases h with
  | kept accepted more held count =>
      exact ⟨.none, by simpa [held, Spent.all, Spent.none] using hconcat, rfl, rfl⟩
  | joined accepted last held count =>
      exact ⟨.ofJoined (slot.held ++ [s]) (by simp),
        by simpa [held, Spent.all, Spent.ofJoined] using hconcat, rfl, rfl⟩
  | restarted broken first held count =>
      refine ⟨.ofLost slot.held, ?_, (Spent.tally_ofLost _).symm, rfl⟩
      rw [held]
      exact .refl _
  | refused broken later held count =>
      refine ⟨.ofLost (slot.held ++ [s]), by simpa [held, Spent.all, Spent.ofLost] using hconcat, ?_,
        rfl⟩
      rw [Spent.tally_ofLost, List.length_append]
      rfl

/-- **What a table does with a sentence accounts for it and for all that it held.** -/
theorem Assembly.process_spends (a : Assembly) (m : Message) {s : Sentence} (hs : s.HasForm) :
    ∃ spent : Spent, (s :: a.held).Perm ((a.process m s).1.held ++ spent.all) ∧
      (a.process m s).2.2.tally = spent.tally ∧
      List.Forall₂ Message.Joins
        (if (a.process m s).2.2.isComplete then [(a.process m s).2.1] else []) spent.joined := by
  obtain ⟨a', m', o, hprocess, hprocesses⟩ := a.process_processes m hs
  rw [hprocess]
  cases hprocesses with
  | invalid valid m =>
      exact ⟨.ofInvalid s valid, (List.perm_append_singleton s a.held).symm, rfl, .nil⟩
  | single valid single joins =>
      exact ⟨.ofJoined [s] (by simp), (List.perm_append_singleton s a.held).symm, rfl,
        .cons joins .nil⟩
  | @part t m' o valid single slot_lt takes joins =>
      obtain ⟨spent, hslot, htally, hjoined⟩ := takes.spends
      refine ⟨spent, ?_, htally, ?_⟩
      · -- the other slots hold what they held
        have hset := a.held_set slot_lt t
        refine List.perm_iff_count.mpr fun x => ?_
        have hset := List.perm_iff_count.mp hset x
        have hslot := List.perm_iff_count.mp hslot x
        simp only [List.count_append, List.count_cons] at hset hslot ⊢
        omega
      · rw [hjoined]
        cases ho : o.isComplete with
        | true => exact .cons (joins (by simpa [Outcome.isComplete] using ho)) .nil
        | false => exact .nil

/-- **Every sentence of a run is accounted for once**: what came and what the table held still waits
there or is spent, and the tally grows by what counts it. -/
theorem Conversion.Yields.spends {a a' : Assembly} {t t' : Tally} {ss : List Sentence}
    {ms : List Message} (h : assembling.Yields a t ss a' t' ms) (hform : ∀ s ∈ ss, s.HasForm) :
    ∃ spent : Spent, (ss ++ a.held).Perm (a'.held ++ spent.all) ∧ t' = t + spent.tally ∧
      List.Forall₂ Message.Joins ms spent.joined := by
  induction h with
  | nil a t => exact ⟨.none, by simp [Spent.all, Spent.none], (add_zero t).symm, .nil⟩
  | @cons a a' t t' s ss ms slot rest ih =>
      obtain ⟨hs, hss⟩ := List.forall_mem_cons.mp hform
      obtain ⟨spent, hperm, htally, hjoins⟩ := a.process_spends slot hs
      obtain ⟨spent', hperm', htally', hjoins'⟩ := ih hss
      refine ⟨spent ++ spent', ?_, ?_, List.rel_append hjoins hjoins'⟩
      · have hmemory : (assembling a t slot s).memory = (a.process slot s).1 := rfl
        rw [hmemory] at hperm'
        refine List.perm_iff_count.mpr fun x => ?_
        have hall := List.perm_iff_count.mp (spent.all_append spent') x
        have hperm := List.perm_iff_count.mp hperm x
        have hperm' := List.perm_iff_count.mp hperm' x
        simp only [List.count_append, List.count_cons, List.cons_append] at hall hperm hperm' ⊢
        omega
      · rw [htally', assembling_tally, htally, Spent.tally_append, add_assoc]

/-! ### Messages -/

/-- A message has no bits exactly where its sentences carry no characters. -/
theorem Payload.ofMessage_eq_zero_iff (p : Payload) {m : Message}
    (hfill : m.fill.toNat ≤ Limits.fillBits) : (p.ofMessage m).2 = 0 ↔ m.payload.isEmpty = true := by
  have hlength := m.payload.size_le
  have hsize : m.payload.isEmpty = true ↔ m.payload.bytes.length = 0 := by
    rw [FixedText.isEmpty, List.isEmpty_iff, List.length_eq_zero_iff]
  rw [hsize, ofMessage, dearmourBits]
  by_cases hnil : m.payload.bytes.length = 0
  · have hfills : ¬ Fills m.payload.bytes m.fill := fun h => h.pos.ne' hnil
    obtain ⟨e, he, -⟩ := dearmour_refused hfills p
    rw [he]
    exact iff_of_true rfl hnil
  · have hfills : Fills m.payload.bytes m.fill := ⟨Nat.pos_of_ne_zero hnil, hlength, hfill⟩
    have hlt := hfills.fill_lt
    obtain ⟨q, hq, -⟩ := p.dearmour_ok m.payload.bytes m.fill hlength hfill hlt
    rw [hq]
    simp only [Except.toOption, Option.getD_some, hnil, iff_false]
    omega

/-- What counts messages that are unpacked: those with characters, and those without. -/
def Tally.unpacked (ms : List Message) : Tally :=
  ⟨0, 0, 0, 0, 0, 0, .ofNat (ms.countP (!·.payload.isEmpty)), .ofNat (ms.countP (·.payload.isEmpty))⟩

theorem Tally.unpacked_append (ms more : List Message) :
    unpacked (ms ++ more) = unpacked ms + unpacked more := by
  simp [unpacked, add_def, UInt64.ofNat_add]

/-- Where no counter wraps, counts of sentences and messages are their numbers: there are no more of
any kind than there are sentences. -/
theorem Tally.toNat_kept {t : Tally} {k : Nat} {spent : Spent} {unpacked : List Message}
    (h : t.kept = .ofSentences k + spent.tally + .unpacked unpacked) (hspent : spent.all.length ≤ k)
    (hunpacked : unpacked.length ≤ spent.joined.length) (hlt : k < 2 ^ 64) :
    t.sentences.toNat = k ∧ t.checksumFailures.toNat = spent.invalid.length ∧
      t.discarded.toNat = spent.lost.length ∧ t.messages.toNat = spent.joined.length ∧
      t.payloads.toNat = unpacked.countP (!·.payload.isEmpty) ∧
      t.emptyPayloads.toNat = unpacked.countP (·.payload.isEmpty) := by
  have hcounters : t.kept = ⟨0, .ofNat k, 0, .ofNat spent.invalid.length, .ofNat spent.lost.length,
      .ofNat spent.joined.length, .ofNat (unpacked.countP (!·.payload.isEmpty)),
      .ofNat (unpacked.countP (·.payload.isEmpty))⟩ := by
    rw [h]
    simp [add_def, ofSentences, Spent.tally, Tally.unpacked]
  obtain ⟨-, hsentences, -, hinvalid, hlost, hmessages, hfull, hempty⟩ := Tally.mk.inj hcounters
  have hnat : ∀ {counter : UInt64} {count : Nat}, counter = .ofNat count → count ≤ k →
      counter.toNat = count := fun h hle =>
    (congrArg UInt64.toNat h).trans (UInt64.toNat_ofNat_of_lt' (Nat.lt_of_le_of_lt hle hlt))
  rw [Spent.all, List.length_append, List.length_append] at hspent
  have hjoined := spent.length_joined_le
  have hmessages_le : spent.joined.length ≤ k := by omega
  have hcount : ∀ p : Message → Bool, unpacked.countP p ≤ k := fun p =>
    List.countP_le_length.trans (hunpacked.trans hmessages_le)
  exact ⟨hnat hsentences (Nat.le_refl k), hnat hinvalid (by omega), hnat hlost (by omega),
    hnat hmessages hmessages_le, hnat hfull (hcount _), hnat hempty (hcount _)⟩

/-- **Every message of a run is counted once**, with bits or without. -/
theorem Conversion.Yields.unpacks {memory memory' : Unit} {t t' : Tally} {ms : List Message}
    {ps : List Payload} (h : dearmouring.Yields memory t ms memory' t' ps)
    (hfill : ∀ m ∈ ms, m.fill.toNat ≤ Limits.fillBits) : t' = t + .unpacked ms := by
  induction h with
  | nil _ t => exact (add_zero t).symm
  | @cons memory _ t t' m ms ps slot rest ih =>
      obtain ⟨hm, hms⟩ := List.forall_mem_cons.mp hfill
      have hone : (dearmouring memory t slot m).tally = t + .unpacked [m] := by
        have hzero := slot.ofMessage_eq_zero_iff hm
        simp only [dearmouring]
        by_cases hempty : m.payload.isEmpty = true
        · rw [if_pos (hzero.mpr hempty), Tally.addEmptyPayload_eq]
          simp [Tally.unpacked, hempty, Tally.addEmptyPayload, Tally.zero_def]
        · rw [if_neg (mt hzero.mp hempty), Tally.addPayload_eq]
          simp [Tally.unpacked, hempty, Tally.addPayload, Tally.zero_def]
      have hall : Tally.unpacked (m :: ms) = .unpacked [m] + .unpacked ms :=
        Tally.unpacked_append [m] ms
      rw [ih hms, hone, hall, add_assoc]

end Ais
