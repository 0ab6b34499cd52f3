import Ais.Proofs.Assembly.Table

/-!
# Assembly — what shows of a table

A table keeps its sentences in storage that earlier ones have used, and fills message records that
have been used as well.  None of that shows: two tables that show the same, given sentences that
show the same, hand out messages that show the same, and still show the same (`process_congr`).
-/

namespace Ais

/-! ### Fields that show -/

namespace Sentence

variable {s t : Sentence}

theorem header_of_shown (h : s.shown = t.shown) : s.header = t.header := congrArg Prod.fst h

theorem text_of_shown (h : s.shown = t.shown) : s.text.bytes = t.text.bytes := congrArg Prod.snd h

theorem number_of_shown (h : s.shown = t.shown) : s.number = t.number :=
  congrArg Header.number (header_of_shown h)

theorem count_of_shown (h : s.shown = t.shown) : s.count = t.count :=
  congrArg Header.count (header_of_shown h)

theorem channel_of_shown (h : s.shown = t.shown) : s.channel = t.channel :=
  congrArg Header.channel (header_of_shown h)

theorem fill_of_shown (h : s.shown = t.shown) : s.fill = t.fill :=
  congrArg Header.fill (header_of_shown h)

/-- The payload lies in the text, where the header says. -/
theorem payloadBytes_of_shown (h : s.shown = t.shown) : s.payloadBytes = t.payloadBytes := by
  have hpayload : s.payload = t.payload := congrArg Header.payload (header_of_shown h)
  rw [payloadBytes, payloadBytes, hpayload, text_of_shown h]

/-- Which slot a sentence goes to shows of its header. -/
theorem slot_of_shown (h : s.shown = t.shown) : s.slot = t.slot := by
  have hid : s.messageId = t.messageId := congrArg Header.messageId (header_of_shown h)
  rw [slot, slot, hid]

theorem isSingle_of_shown (h : s.shown = t.shown) : s.isSingle = t.isSingle := by
  rw [isSingle, isSingle, count_of_shown h]

/-- Whether its checksum is right shows of text and header. -/
theorem isValid_of_shown (h : s.shown = t.shown) : s.isValid = t.isValid := by
  have hchecksum : s.checksum = t.checksum := congrArg Header.checksum (header_of_shown h)
  rw [isValid, isValid, computed, computed, text_of_shown h, hchecksum]

end Sentence

/-- All that can be seen of a message. -/
def Message.shown (m : Message) : List UInt8 × List UInt8 × Option UInt8 × UInt8 :=
  (m.sentences.bytes, m.payload.bytes, m.channel, m.fill)

/-- What shows of each sentence shows of a list of them. -/
theorem Sentence.map_of_shown {β : Type} {f : Sentence → β}
    (hf : ∀ {s t : Sentence}, s.shown = t.shown → f s = f t) {ss ts : List Sentence}
    (h : ss.map (·.shown) = ts.map (·.shown)) : ss.map f = ts.map f := by
  induction ss generalizing ts with
  | nil => rw [List.map_eq_nil_iff.mp h.symm]
  | cons s ss ih =>
      cases ts with
      | nil => cases h
      | cons t ts =>
          rw [List.map_cons, List.map_cons, List.cons.injEq] at h
          rw [List.map_cons, List.map_cons, hf h.1, ih h.2]

/-- Messages joined of sentences that show the same show the same. -/
theorem Message.Joins.shown_eq {m m' : Message} {ss ss' : List Sentence} (h : m.Joins ss)
    (h' : m'.Joins ss') (e : ss.map (·.shown) = ss'.map (·.shown)) : m.shown = m'.shown := by
  have htexts := Sentence.map_of_shown Sentence.text_of_shown e
  have hpayloads := Sentence.map_of_shown Sentence.payloadBytes_of_shown e
  have hchannels := congrArg List.head? (Sentence.map_of_shown Sentence.channel_of_shown e)
  have hfills := congrArg List.getLast? (Sentence.map_of_shown Sentence.fill_of_shown e)
  rw [List.head?_map, List.head?_map] at hchannels
  rw [List.getLast?_map, List.getLast?_map] at hfills
  have hbind : ∀ o : Option Sentence, o.bind (·.channel) = (o.map (·.channel)).join := fun o => by
    cases o <;> rfl
  rw [shown, shown, h.sentences, h'.sentences, htexts, h.payload, h'.payload, List.flatMap_def,
    List.flatMap_def, hpayloads, h.channel, h'.channel, hbind, hbind, hchannels, h.fill, h'.fill,
    hfills]

/-! ### Slots and tables -/

namespace Slot

/-- All that can be seen of a slot. -/
def shown (slot : Slot) : List (Header × List UInt8) × UInt8 :=
  (slot.held.map (·.shown), slot.count)

variable {slot slot' t t' : Slot} {s s' : Sentence} {o o' : Outcome}

/-- A slot that shows the same holds as many sentences. -/
theorem index_of_shown (h : slot.shown = slot'.shown) : slot.index = slot'.index := by
  have : (slot.held.map (·.shown)).length = (slot'.held.map (·.shown)).length :=
    congrArg (fun shown => shown.1.length) h
  rwa [List.length_map, List.length_map] at this

/-- It waits for the same sentence. -/
theorem accepts_of_shown (h : slot.shown = slot'.shown) (e : s.shown = s'.shown) :
    slot.accepts s = slot'.accepts s' := by
  have hcount : slot.count = slot'.count := congrArg Prod.snd h
  rw [accepts, accepts, isIdle, isIdle, index_of_shown h, hcount, Sentence.number_of_shown e,
    Sentence.count_of_shown e]

/-- What comes of a sentence is known from what the slot waits for. -/
theorem Takes.outcome_eq (h : slot.Takes s t o) :
    o = if slot.accepts s then if s.number = s.count then .complete else .pending
      else .discarded (if s.number.toNat = 1 then slot.index else slot.index + 1) := by
  cases h with
  | kept accepted more held count => rw [if_pos accepted, if_neg more]
  | joined accepted last held count => rw [if_pos accepted, if_pos last]
  | restarted broken first held count => rw [if_neg (by simp [broken]), if_pos first]
  | refused broken later held count => rw [if_neg (by simp [broken]), if_neg later]

/-- So is what the slot then shows. -/
theorem Takes.shown_eq (h : slot.Takes s t o) :
    t.shown = if slot.accepts s then
        if s.number = s.count then ([], 0) else (slot.shown.1 ++ [s.shown], s.count)
      else if s.number.toNat = 1 then ([s.shown], s.count) else ([], 0) := by
  cases h with
  | kept accepted more held count =>
      rw [if_pos accepted, if_neg more, shown, held, count, List.map_append]
      rfl
  | joined accepted last held count =>
      rw [if_pos accepted, if_pos last, shown, held, count]
      rfl
  | restarted broken first held count =>
      rw [if_neg (by simp [broken]), if_pos first, shown, held, count]
      rfl
  | refused broken later held count =>
      rw [if_neg (by simp [broken]), if_neg later, shown, held, count]
      rfl

/-- What a slot does shows of what shows alone. -/
theorem Takes.congr (h : slot.shown = slot'.shown) (e : s.shown = s'.shown)
    (ht : slot.Takes s t o) (ht' : slot'.Takes s' t' o') : o = o' ∧ t.shown = t'.shown := by
  have haccepts := accepts_of_shown h e
  have hnumber := Sentence.number_of_shown e
  have hcount := Sentence.count_of_shown e
  refine ⟨?_, ?_⟩
  · rw [ht.outcome_eq, ht'.outcome_eq, haccepts, hnumber, hcount, index_of_shown h]
  · rw [ht.shown_eq, ht'.shown_eq, haccepts, hnumber, hcount, h, e]

theorem isPart_of_shown (hs : s.IsPart) (e : s.shown = s'.shown) : s'.IsPart := by
  have hnumber := Sentence.number_of_shown e
  have hcount := Sentence.count_of_shown e
  exact ⟨hnumber ▸ hs.number_pos, hnumber ▸ hcount ▸ hs.number_le, hcount ▸ hs.count_le,
    hcount ▸ hs.count_ne⟩

/-- **What a slot does shows of what shows alone**, the message that it joins with it. -/
theorem take_congr (h : slot.shown = slot'.shown) (hs : s.IsPart) (e : s.shown = s'.shown)
    (m m' : Message) :
    (slot.take m s).1.shown = (slot'.take m' s').1.shown ∧
      (slot.take m s).2.2 = (slot'.take m' s').2.2 ∧
      ((slot.take m s).2.2 = .complete →
        (slot.take m s).2.1.shown = (slot'.take m' s').2.1.shown) := by
  obtain ⟨t, k, o, htake, htakes, hjoins⟩ := slot.take_takes m hs
  obtain ⟨t', k', o', htake', htakes', hjoins'⟩ := slot'.take_takes m' (isPart_of_shown hs e)
  obtain ⟨rfl, ht⟩ := htakes.congr h e htakes'
  rw [htake, htake']
  refine ⟨ht, rfl, fun ho => (hjoins ho).shown_eq (hjoins' ho) ?_⟩
  have hheld : slot.held.map (·.shown) = slot'.held.map (·.shown) := congrArg Prod.fst h
  rw [List.map_append, List.map_append, hheld, List.map_singleton, List.map_singleton, e]

end Slot

namespace Assembly

/-- All that can be seen of a table. -/
def shown (a : Assembly) : Vector (List (Header × List UInt8) × UInt8) Limits.slots :=
  a.slots.map Slot.shown

theorem slot_of_shown {a a' : Assembly} (h : a.shown = a'.shown) {id : Nat}
    (hid : id < Limits.slots) : a.slots[id].shown = a'.slots[id].shown := by
  have := congrArg (fun slots => slots[id]) h
  simpa [shown] using this

/-- **What a table does shows of what shows alone.** -/
theorem process_congr {a a' : Assembly} (h : a.shown = a'.shown) {s s' : Sentence} (hs : s.HasForm)
    (e : s.shown = s'.shown) (m m' : Message) :
    (a.process m s).1.shown = (a'.process m' s').1.shown ∧
      (a.process m s).2.2 = (a'.process m' s').2.2 ∧
      ((a.process m s).2.2 = .complete →
        (a.process m s).2.1.shown = (a'.process m' s').2.1.shown) := by
  have hvalid := Sentence.isValid_of_shown e
  have hsingle := Sentence.isSingle_of_shown e
  cases hv : s.isValid with
  | false =>
      rw [process_of_invalid a m hv, process_of_invalid a' m' (hvalid ▸ hv)]
      exact ⟨h, rfl, by simp⟩
  | true =>
      cases h1 : s.isSingle with
      | true =>
          obtain ⟨k, hk, hjoins⟩ := process_of_single a m hv h1
          obtain ⟨k', hk', hjoins'⟩ := process_of_single a' m' (hvalid ▸ hv) (hsingle ▸ h1)
          rw [hk, hk']
          exact ⟨h, rfl, fun _ => hjoins.shown_eq hjoins' (by simpa using e)⟩
      | false =>
          have hslot := hs.slot_lt
          obtain ⟨ht, ho, hm⟩ :=
            Slot.take_congr (slot_of_shown h hslot) (hs.isPart h1) e m m'
          rw [process_of_part a m hv h1 rfl hslot, process_of_part a' m' (hvalid ▸ hv)
            (hsingle ▸ h1) (Sentence.slot_of_shown e).symm hslot]
          refine ⟨?_, ho, hm⟩
          rw [shown, shown, Vector.map_set, Vector.map_set, ht]
          congr 1

end Assembly

end Ais
