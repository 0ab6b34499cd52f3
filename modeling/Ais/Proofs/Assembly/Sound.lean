import Ais.Proofs.Assembly.History

/-!
# Assembly — what a slot can hold

However sentences come, a slot is idle or holds the first sentences of a message, fewer than it has,
each of them valid and come for this slot (`Slot.Sound`).  What a slot does keeps this
(`Sound.step`), so it holds in every table that sentences have been read into (`sound_feed_empty`).

* `capacity_suffices`: the storage of a slot is never too small, nor is a byte for its count, nor a
  message record for what is joined; a sentence is only thrown away where it is out of order.
* `joined_ids`: the sentences of one message have one message id, unless one of them has none and
  stands for 0.  `joined_ids_differ` has such a message.
-/

namespace Ais

namespace Slot

/-- The slot `id` is idle, or holds the first sentences of a message, valid and sent there. -/
structure Sound (slot : Slot) (id : Nat) : Prop where
  bounds  : (slot.index = 0 ∧ slot.count = 0) ∨
    (1 ≤ slot.index ∧ slot.index < slot.count.toNat ∧
      slot.count.toNat ≤ Limits.sentencesPerMessage)
  inOrder : InOrder slot.count slot.held
  goesTo  : ∀ s ∈ slot.held, s.goesTo id = true

theorem sound_empty (id : Nat) : Slot.empty.Sound id where
  bounds  := .inl ⟨rfl, rfl⟩
  inOrder := .nil _
  goesTo  := fun _ h => absurd h List.not_mem_nil

/-- An idle slot is sound. -/
theorem Sound.of_idle {t : Slot} (id : Nat) (held : t.held = []) (count : t.count = 0) :
    t.Sound id where
  bounds  := .inl ⟨by rw [index, held, List.length_nil], count⟩
  inOrder := held ▸ .nil _
  goesTo  := fun s h => by
    rw [held] at h
    cases h

/-- A slot that has kept a sentence which is not the last of its message is sound. -/
theorem Sound.of_kept {t : Slot} {id : Nat} {s : Sentence} {front : List Sentence}
    (hs : s.IsPart) (hgoes : s.goesTo id = true) (hfront : ∀ x ∈ front, x.goesTo id = true)
    (ho : InOrder s.count (front ++ [s])) (hmore : s.number ≠ s.count)
    (held : t.held = front ++ [s]) (count : t.count = s.count) : t.Sound id where
  bounds  := by
    have hnumber := (InOrder.concat_iff.mp ho).2.1
    have hle := hs.number_le
    have hne : s.number.toNat ≠ s.count.toNat := fun e => hmore (UInt8.toNat_inj.mp e)
    right
    rw [index, held, count, List.length_append, List.length_singleton, ← hnumber]
    exact ⟨hs.number_pos, by omega, hs.count_le⟩
  inOrder := held ▸ count ▸ ho
  goesTo  := fun x h => by
    rw [held] at h
    rcases List.mem_append.mp h with h | h
    · exact hfront x h
    · rw [List.mem_singleton.mp h]
      exact hgoes

variable {slot t : Slot} {id : Nat} {s : Sentence} {o : Outcome}

/-- **A step keeps a slot sound.** -/
theorem Sound.step (h : slot.Sound id) (hs : s.IsPart) (hgoes : s.goesTo id = true)
    (ht : slot.Takes s t o) : t.Sound id := by
  cases ht with
  | kept accepted more held count =>
      exact .of_kept hs hgoes h.goesTo (inOrder_concat h.inOrder accepted) more held count
  | joined accepted last held count => exact .of_idle id held count
  | restarted broken first held count =>
      have ho : InOrder s.count ([] ++ [s]) := InOrder.concat_iff.mpr ⟨.nil _, first, rfl⟩
      have hmore : s.number ≠ s.count := fun e => hs.count_ne (e ▸ first)
      exact .of_kept hs hgoes (fun _ hx => absurd hx List.not_mem_nil) ho hmore held count
  | refused broken later held count => exact .of_idle id held count

/-- There is always storage for one more sentence. -/
theorem Sound.index_lt (h : slot.Sound id) : slot.index < Limits.sentencesPerMessage := by
  rcases h.bounds with ⟨hidle, -⟩ | ⟨-, hlt, hle⟩
  · rw [hidle]
    decide
  · exact Nat.lt_of_lt_of_le hlt hle

/-- A sentence that is accepted is stored, and what is then held fits into any message record. -/
theorem Sound.store_ok (h : slot.Sound id) (hs : s.IsPart) (ha : slot.accepts s = true)
    (m : Message) :
    ∃ t, slot.store? s = some t ∧ t.held = slot.held ++ [s] ∧ (m.ofSentences t.held).2 = .ok () := by
  obtain ⟨t, hstore, hheld, -⟩ := store?_ok hs ha
  have hroom : t.held.length ≤ Limits.sentencesPerMessage := by
    rw [hheld, List.length_append, List.length_singleton]
    exact h.index_lt
  obtain ⟨m', hm', -⟩ := m.ofSentences_ok t.held hroom
  exact ⟨t, hstore, hheld, by rw [hm']⟩

/-- A slot that throws sentences away was not waiting for the one that came. -/
theorem Takes.discarded {dropped : Nat} (ht : slot.Takes s t (.discarded dropped)) :
    slot.accepts s = false ∧
      dropped = if s.number.toNat = 1 then slot.index else slot.index + 1 := by
  cases ht with
  | restarted broken first held count => exact ⟨broken, (if_pos first).symm⟩
  | refused broken later held count => exact ⟨broken, (if_neg later).symm⟩

end Slot

namespace Assembly

theorem sound_feed_empty {id : Nat} (hid : id < Limits.slots) (run : List (Message × Sentence))
    (hrun : ∀ x ∈ run, x.2.IsRead) : (empty.feed run).slots[id].Sound id := by
  have hsound : empty.slots[id].Sound id := by
    simpa [empty] using Slot.sound_empty id
  exact feed_induction (P := fun _ slot => slot.Sound id) hid
    (fun hpart hgoes htakes h => h.step hpart hgoes htakes) run hrun [] hsound

/-- **What a table has room for suffices.**  After any run of a new table every slot is sound.  A
sentence that is read then finds its slot; one more than are held can be counted in a byte; there is
storage where the slot, as it is or reset, accepts it; and what is joined fits into any message
record, be it one sentence or all that are held.  So sentences are thrown away only where the slot
waits for another one than came. -/
theorem capacity_suffices (run : List (Message × Sentence)) (hrun : ∀ x ∈ run, x.2.IsRead) :
    (∀ {id : Nat} (hid : id < Limits.slots), (empty.feed run).slots[id].Sound id) ∧
    ∀ (m : Message) {s : Sentence}, s.IsRead →
      (m.ofSingle s).2 = .ok () ∧ ∃ hid : s.slot < Limits.slots,
        let slot := (empty.feed run).slots[s.slot]
        slot.index + 1 < UInt8.size ∧
        (s.isSingle = false → ∀ t ∈ [slot, slot.reset], t.accepts s = true →
          t.index < Limits.sentencesPerMessage ∧ ∃ t', t.store? s = some t' ∧
            t'.held = t.held ++ [s] ∧ (m.ofSentences t'.held).2 = .ok ()) ∧
        ∀ dropped, ((empty.feed run).process m s).2.2 = .discarded dropped →
          s.isValid = true ∧ s.isSingle = false ∧ slot.accepts s = false ∧
            dropped = if s.number.toNat = 1 then slot.index else slot.index + 1 := by
  have hsound : ∀ {id : Nat} (hid : id < Limits.slots), (empty.feed run).slots[id].Sound id :=
    fun hid => sound_feed_empty hid run hrun
  refine ⟨hsound, fun m s hs => ?_⟩
  have hid := hs.hasForm.slot_lt
  obtain ⟨m₁, hsingle, -⟩ := m.ofSingle_ok s
  refine ⟨by rw [hsingle], hid, ?_, ?_, ?_⟩
  · exact Nat.lt_of_le_of_lt (hsound hid).index_lt (by decide)
  · intro hpart t ht haccepts
    have hreset : (empty.feed run).slots[s.slot].reset.Sound s.slot := .of_idle _ rfl rfl
    have ht : t.Sound s.slot := by
      rcases List.mem_pair.mp ht with rfl | rfl
      · exact hsound hid
      · exact hreset
    exact ⟨ht.index_lt, ht.store_ok (hs.hasForm.isPart hpart) haccepts m⟩
  · intro dropped h
    obtain ⟨a', m', o, hprocess, hprocesses⟩ := (empty.feed run).process_processes m hs.hasForm
    rw [hprocess] at h
    obtain rfl : o = .discarded dropped := h
    cases hprocesses with
    | part valid single slot_lt takes joins => exact ⟨valid, single, takes.discarded⟩

/-- The second of two sentences finds the first, and storage behind it. -/
theorem capacity_suffices_second :
    let first  := (Sentence.empty.parse .any (Ascii.ofString "AIVDM,2,1,3,A,w,0*61\n")).1
    let second := (Sentence.empty.parse .any (Ascii.ofString "AIVDM,2,2,3,B,0h,2*4C\n")).1
    let table  := empty.feed [(Message.empty, first)]
    (∀ x ∈ [(Message.empty, first)], x.2.IsRead) ∧ second.IsRead ∧ table.slots[3].Sound 3 ∧
      table.slots[3].index = 1 ∧ table.slots[3].accepts second = true ∧
      ∃ t, table.slots[3].store? second = some t ∧ t.held = table.slots[3].held ++ [second] ∧
        (Message.empty.ofSentences t.held).2 = .ok () := by
  intro first second table
  have hfirst : ∀ x ∈ [(Message.empty, first)], x.2.IsRead := fun x hx => by
    rw [List.mem_singleton.mp hx]
    exact Sentence.isRead_parse 20 rfl
  have hsecond : second.IsRead := Sentence.isRead_parse 21 rfl
  have hslot : second.slot = 3 := by decide +kernel
  have hindex : table.slots[3].index = 1 := by decide +kernel
  have haccepts : table.slots[3].accepts second = true := by decide +kernel
  obtain ⟨hsound, hroom⟩ := capacity_suffices [(Message.empty, first)] hfirst
  obtain ⟨-, hid, -, hstore, -⟩ := hroom .empty hsecond
  simp only [hslot] at hstore
  obtain ⟨-, hstored⟩ := hstore (by decide +kernel) _ List.mem_cons_self haccepts
  exact ⟨hfirst, hsecond, hsound (by decide), hindex, haccepts, hstored⟩

/-! ### One message, one id -/

/-- **The sentences of one message have one id**, a sentence without any standing for one whose id
is 0: all that the slot held, and the last.  They are sentences of the run. -/
theorem joined_ids (run : List (Message × Sentence)) (hrun : ∀ x ∈ run, x.2.IsRead) (m : Message)
    {s : Sentence} (hs : s.IsRead) (hpart : s.isSingle = false)
    (hcomplete : ((empty.feed run).process m s).2.2 = .complete) :
    ∃ hid : s.slot < Limits.slots,
      let group := (empty.feed run).slots[s.slot].held ++ [s]
      ((empty.feed run).process m s).2.1.Joins group ∧ group.Sublist (run.map Prod.snd ++ [s]) ∧
        ∀ x ∈ group, x.messageId.getD 0 = s.messageId.getD 0 := by
  obtain ⟨a', m', o, hprocess, hprocesses⟩ := (empty.feed run).process_processes m hs.hasForm
  rw [hprocess] at hcomplete ⊢
  obtain rfl : o = .complete := hcomplete
  cases hprocesses with
  | single valid single joins =>
      rw [hpart] at single
      cases single
  | part valid single slot_lt takes joins =>
      have htraffic := (tracks_feed_empty slot_lt run hrun).held.sublist
      refine ⟨slot_lt, joins rfl, ?_, fun x hx => ?_⟩
      · exact (htraffic.trans List.filter_sublist).append_right [s]
      · rcases List.mem_append.mp hx with hheld | hlast
        · have hgoes := (sound_feed_empty slot_lt run hrun).goesTo x hheld
          exact UInt8.toNat_inj.mp (Sentence.goesTo_iff.mp hgoes).2.2
        · rw [List.mem_singleton.mp hlast]

/-- Two sentences of one message, and one of another between them. -/
theorem joined_ids_three :
    let first  := (Sentence.empty.parse .any (Ascii.ofString "AIVDM,2,1,3,A,w,0*61\n")).1
    let other  := (Sentence.empty.parse .any (Ascii.ofString "AIVDM,2,1,4,A,w,0*66\n")).1
    let second := (Sentence.empty.parse .any (Ascii.ofString "AIVDM,2,2,3,B,0h,2*4C\n")).1
    let run    := [(Message.empty, first), (Message.empty, other)]
    (∀ x ∈ run, x.2.IsRead) ∧ second.IsRead ∧ second.isSingle = false ∧
      ((empty.feed run).process .empty second).2.2 = .complete ∧
      ((empty.feed run).process .empty second).2.1.Joins [first, second] ∧
      ∀ x ∈ [first, second], x.messageId.getD 0 = second.messageId.getD 0 := by
  intro first other second run
  have hrun : ∀ x ∈ run, x.2.IsRead := fun x hx => by
    rcases List.mem_pair.mp hx with rfl | rfl
    · exact Sentence.isRead_parse 20 rfl
    · exact Sentence.isRead_parse 20 rfl
  have hsecond : second.IsRead := Sentence.isRead_parse 21 rfl
  have hpart : second.isSingle = false := by decide +kernel
  have hcomplete : ((empty.feed run).process .empty second).2.2 = .complete := by decide +kernel
  have hslot : second.slot = 3 := by decide +kernel
  have hheld : (empty.feed run).slots[3].held = [first] := by decide +kernel
  obtain ⟨hid, hjoins, -, hids⟩ := joined_ids run hrun .empty hsecond hpart hcomplete
  simp only [hslot, hheld] at hjoins hids
  exact ⟨hrun, hsecond, hpart, hcomplete, hjoins, hids⟩

/-- A sentence without an id and one whose id is 0 make one message. -/
theorem joined_ids_differ :
    let first  := (Sentence.empty.parse .any (Ascii.ofString "AIVDM,2,1,,A,w,0*52\n")).1
    let second := (Sentence.empty.parse .any (Ascii.ofString "AIVDM,2,2,0,A,0h,2*4C\n")).1
    let table  := empty.feed [(Message.empty, first)]
    first.IsRead ∧ second.IsRead ∧ second.isSingle = false ∧ table.slots[0].held = [first] ∧
      (table.process .empty second).2.2 = .complete ∧
      (table.process .empty second).2.1.payload.bytes = first.payloadBytes ++ second.payloadBytes ∧
      first.messageId = none ∧ second.messageId = some 0 := by
  exact ⟨Sentence.isRead_parse 19 rfl, Sentence.isRead_parse 21 rfl, by decide +kernel⟩

end Assembly

end Ais
