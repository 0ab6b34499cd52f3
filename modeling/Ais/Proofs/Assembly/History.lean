import Mathlib.Data.List.DropRight
import Ais.Proofs.Assembly.Table

/-!
# Assembly — a message is complete when its sentences came in order

A slot remembers little: how many sentences it holds, and of how many its message has.  What it
holds is nevertheless a fact about everything that went to it (`Slot.Tracks`): it is the end of that
history which is the beginning of a message, and there is no other such end.  A step keeps this
(`Tracks.step`), so it holds of every slot after every run (`tracks_feed`), and a sentence completes
a message exactly where it is the last of as many sentences in order as its message has.
-/

namespace Ais

/-- The sentences are the first ones of a message of `count` sentences, in order. -/
structure InOrder (count : UInt8) (ss : List Sentence) : Prop where
  numbers : ss.map (·.number.toNat) = List.range' 1 ss.length
  counts  : ∀ s ∈ ss, s.count = count

namespace InOrder

theorem nil (count : UInt8) : InOrder count [] := ⟨rfl, by simp⟩

/-- Sentences are in order when all but the last are, and the last is the next. -/
theorem concat_iff {count : UInt8} {ss : List Sentence} {s : Sentence} :
    InOrder count (ss ++ [s]) ↔
      InOrder count ss ∧ s.number.toNat = ss.length + 1 ∧ s.count = count := by
  constructor
  · rintro ⟨hnumbers, hcounts⟩
    rw [List.map_append, List.length_append, List.length_singleton, List.range'_concat] at hnumbers
    obtain ⟨h₁, h₂⟩ := List.append_inj' hnumbers rfl
    refine ⟨⟨h₁, fun t ht => hcounts t (by simp [ht])⟩, ?_, hcounts s (by simp)⟩
    have : s.number.toNat = 1 + 1 * ss.length := by simpa using h₂
    omega
  · rintro ⟨⟨hnumbers, hcounts⟩, hnumber, hcount⟩
    refine ⟨?_, ?_⟩
    · rw [List.map_append, List.length_append, List.length_singleton, List.range'_concat, hnumbers]
      simp [hnumber, Nat.add_comm]
    · intro t ht
      rcases List.mem_append.mp ht with ht | ht
      · exact hcounts t ht
      · rw [List.mem_singleton.mp ht, hcount]

end InOrder

namespace Slot

/-- What the slot holds is where `history`, all that went to it, breaks off within a message: no
other end of it is the beginning of one. -/
structure Tracks (slot : Slot) (history : List Sentence) : Prop where
  held    : slot.held <:+ history
  inOrder : InOrder slot.count slot.held
  latest  : ∀ {count ss}, ss <:+ history → ss ≠ [] → InOrder count ss → ss.length < count.toNat →
    ss = slot.held

theorem tracks_empty : Slot.empty.Tracks [] where
  held    := List.suffix_rfl
  inOrder := .nil _
  latest  := fun h hne _ _ => absurd (List.suffix_nil.mp h) hne

/-- An end of the longer history that is in order is the new sentence behind an end of the shorter
one. -/
theorem suffix_concat_inv {history ss : List Sentence} {s : Sentence} {count : UInt8}
    (h : ss <:+ history ++ [s]) (hne : ss ≠ []) (ho : InOrder count ss) :
    ∃ front, ss = front ++ [s] ∧ front <:+ history ∧ InOrder count front ∧
      s.number.toNat = front.length + 1 ∧ s.count = count := by
  rcases List.suffix_concat_iff.mp h with hnil | ⟨front, rfl, hfront⟩
  · exact absurd hnil hne
  · obtain ⟨h₁, h₂, h₃⟩ := InOrder.concat_iff.mp ho
    exact ⟨front, by simp, hfront, h₁, h₂, h₃⟩

variable {slot t : Slot} {history front : List Sentence} {s : Sentence} {o : Outcome}

/-- If a sentence is the next one behind an end of the history, then that end is what the slot
holds, and the slot accepts the sentence. -/
theorem Tracks.accepts_of_suffix (h : slot.Tracks history) (hs : s.IsPart)
    (hfront : front <:+ history) (hne : front ≠ []) (ho : InOrder s.count front)
    (hnumber : s.number.toNat = front.length + 1) :
    front = slot.held ∧ slot.accepts s = true := by
  have hle := hs.number_le
  obtain rfl := h.latest hfront hne ho (by omega)
  refine ⟨rfl, accepts_iff.mpr ⟨hnumber, .inr ?_⟩⟩
  obtain ⟨x, hx⟩ := List.exists_mem_of_ne_nil _ hne
  rw [← ho.counts x hx, h.inOrder.counts x hx]

/-- What an accepting slot holds is in order for the sentence it accepts. -/
theorem inOrder_concat (h : InOrder slot.count slot.held) (ha : slot.accepts s = true) :
    InOrder s.count (slot.held ++ [s]) := by
  obtain ⟨hnumber, hcount⟩ := accepts_iff.mp ha
  refine InOrder.concat_iff.mpr ⟨?_, hnumber, rfl⟩
  rcases hcount with hidle | hcount
  · rw [hidle]
    exact .nil _
  · rw [hcount]
    exact h

theorem suffix_concat {ss : List Sentence} (h : ss <:+ history) (s : Sentence) :
    ss ++ [s] <:+ history ++ [s] := by
  obtain ⟨before, rfl⟩ := h
  exact ⟨before, by simp⟩

/-- **A step keeps track.** -/
theorem Tracks.step (h : slot.Tracks history) (hs : s.IsPart) (ht : slot.Takes s t o) :
    t.Tracks (history ++ [s]) := by
  cases ht with
  | kept accepted more held count =>
      have hnumber := (accepts_iff.mp accepted).1
      refine ⟨held ▸ suffix_concat h.held s, held ▸ count ▸ inOrder_concat h.inOrder accepted, ?_⟩
      intro _ ss hss hne ho _
      obtain ⟨front, rfl, hfront, ho', hnumber', rfl⟩ := suffix_concat_inv hss hne ho
      rw [held]
      by_cases hnil : front = []
      · have : slot.held.length = 0 := by simp only [hnil, List.length_nil] at hnumber'; omega
        rw [hnil, List.eq_nil_of_length_eq_zero this]
      · rw [(h.accepts_of_suffix hs hfront hnil ho' hnumber').1]
  | joined accepted last held count =>
      refine ⟨held ▸ List.nil_suffix, held ▸ .nil _, ?_⟩
      intro _ ss hss hne ho hlt
      -- the message is whole, so no end of the history with it is the beginning of one
      obtain ⟨front, rfl, -, -, hnumber', rfl⟩ := suffix_concat_inv hss hne ho
      rw [List.length_append, List.length_singleton, ← hnumber', last] at hlt
      exact absurd hlt (Nat.lt_irrefl _)
  | restarted broken first held count =>
      refine ⟨held ▸ List.suffix_append history [s], ?_, ?_⟩
      · rw [held, count]
        exact InOrder.concat_iff.mpr ⟨.nil _, by simpa using first, rfl⟩
      · intro _ ss hss hne ho _
        obtain ⟨front, rfl, -, -, hnumber', -⟩ := suffix_concat_inv hss hne ho
        have : front = [] := List.eq_nil_of_length_eq_zero (by omega)
        rw [this, held, List.nil_append]
  | refused broken later held count =>
      refine ⟨held ▸ List.nil_suffix, held ▸ .nil _, ?_⟩
      intro _ ss hss hne ho _
      -- the slot would have accepted the sentence behind any beginning of its message
      obtain ⟨front, rfl, hfront, ho', hnumber', rfl⟩ := suffix_concat_inv hss hne ho
      have hne' : front ≠ [] := fun e => later (by simp [hnumber', e])
      rw [(h.accepts_of_suffix hs hfront hne' ho' hnumber').2] at broken
      cases broken

/-- The sentences that a message is joined of are the last that went to the slot. -/
theorem Tracks.rtake_eq (h : slot.Tracks history) (ha : slot.accepts s = true)
    (hlast : s.number = s.count) :
    (history ++ [s]).rtake s.count.toNat = slot.held ++ [s] := by
  have hlength : (slot.held ++ [s]).length = s.count.toNat := by
    rw [List.length_append, List.length_singleton, ← hlast, (accepts_iff.mp ha).1]
  rw [List.rtake, ← hlength]
  exact (List.suffix_iff_eq_drop.mp (suffix_concat h.held s)).symm

/-- **A message is complete** where the last sentences that went to the slot, as many as the message
has, are all of it in order. -/
theorem Tracks.complete_iff (h : slot.Tracks history) (hs : s.IsPart) (ht : slot.Takes s t o) :
    o = .complete ↔ s.number = s.count ∧
      InOrder s.count ((history ++ [s]).rtake s.count.toNat) ∧
      ((history ++ [s]).rtake s.count.toNat).length = s.count.toNat := by
  constructor
  · rintro rfl
    cases ht with
    | joined accepted last held count =>
        rw [h.rtake_eq accepted last]
        refine ⟨last, inOrder_concat h.inOrder accepted, ?_⟩
        rw [List.length_append, List.length_singleton, ← last, (accepts_iff.mp accepted).1]
  · rintro ⟨hlast, ho, hlength⟩
    have hle := hs.number_le
    have hpos := hs.number_pos
    have hne := hs.count_ne
    generalize hgroup : (history ++ [s]).rtake s.count.toNat = group at ho hlength
    have hsuffix : group <:+ history ++ [s] := hgroup ▸ List.drop_suffix ..
    obtain ⟨front, rfl, hfront, ho', hnumber, -⟩ := suffix_concat_inv hsuffix
      (List.ne_nil_of_length_pos (by omega)) ho
    have hne' : front ≠ [] := List.ne_nil_of_length_pos (by
      rw [List.length_append, List.length_singleton] at hlength
      omega)
    have ha := (h.accepts_of_suffix hs hfront hne' ho' hnumber).2
    cases ht with
    | kept accepted more held count => exact absurd hlast more
    | joined accepted last held count => rfl
    | restarted broken first held count => rw [ha] at broken; cases broken
    | refused broken later held count => rw [ha] at broken; cases broken

end Slot

namespace Assembly

/-- A run keeps track of what went to a slot. -/
theorem tracks_feed {id : Nat} (hid : id < Limits.slots) (run : List (Message × Sentence))
    (hrun : ∀ x ∈ run, x.2.IsRead) {a : Assembly} {history : List Sentence}
    (h : a.slots[id].Tracks history) :
    (a.feed run).slots[id].Tracks (history ++ (run.map Prod.snd).filter (·.goesTo id)) :=
  feed_induction (P := fun history slot => slot.Tracks history) hid
    (fun hpart _ htakes htracks => htracks.step hpart htakes) run hrun history h

theorem tracks_feed_empty {id : Nat} (hid : id < Limits.slots) (run : List (Message × Sentence))
    (hrun : ∀ x ∈ run, x.2.IsRead) :
    (empty.feed run).slots[id].Tracks ((run.map Prod.snd).filter (·.goesTo id)) := by
  have htracks : empty.slots[id].Tracks [] := by
    simpa [empty] using Slot.tracks_empty
  simpa using tracks_feed hid run hrun htracks

/-- **Assembly is sound and complete.**  After any run of a new table, a sentence of a longer message
completes it exactly where it is the last of its message and the last sentences that went to its
slot, as many as the message has, are that message in order; the message is then joined of these.
A sentence that is a message of its own is always handed out, and one whose checksum does not hold
never. -/
theorem complete_iff_in_order (run : List (Message × Sentence)) (hrun : ∀ x ∈ run, x.2.IsRead)
    (m : Message) {s : Sentence} (hs : s.IsRead) :
    ∃ a' m' o, (empty.feed run).process m s = (a', m', o) ∧
      (s.isValid = true → s.isSingle = false →
        let group := ((run.map Prod.snd ++ [s]).filter (·.goesTo s.slot)).rtake s.count.toNat
        (o = .complete ↔
          s.number = s.count ∧ InOrder s.count group ∧ group.length = s.count.toNat) ∧
        (o = .complete → m'.Joins group)) ∧
      (s.isValid = true → s.isSingle = true → o = .complete ∧ m'.Joins [s]) ∧
      (s.isValid = false → o ≠ .complete) := by
  cases hv : s.isValid with
  | false => exact ⟨_, _, _, process_of_invalid _ m hv, by simp, by simp, by simp⟩
  | true =>
      cases hsingle : s.isSingle with
      | true =>
          obtain ⟨m', hm', hjoins⟩ := process_of_single (empty.feed run) m hv hsingle
          exact ⟨_, _, _, hm', by simp, fun _ _ => ⟨rfl, hjoins⟩, by simp⟩
      | false =>
          have hpart := hs.hasForm.isPart hsingle
          have hslot := hs.hasForm.slot_lt
          have htracks := tracks_feed_empty hslot run hrun
          obtain ⟨t, m', o, htake, htakes, hjoins⟩ :=
            (empty.feed run).slots[s.slot].take_takes m hpart
          have hgroup : (run.map Prod.snd ++ [s]).filter (·.goesTo s.slot) =
              (run.map Prod.snd).filter (·.goesTo s.slot) ++ [s] := by
            simp [Sentence.goesTo, hv, hsingle]
          refine ⟨_, m', o, by rw [process_of_part _ m hv hsingle rfl hslot, htake],
            fun _ _ => ?_, by simp, by simp⟩
          rw [hgroup]
          refine ⟨htracks.complete_iff hpart htakes, ?_⟩
          rintro rfl
          cases htakes with
          | joined accepted last held count =>
              rw [htracks.rtake_eq accepted last]
              exact hjoins rfl

/-- The two sentences of a message, one after the other. -/
theorem two_in_order_complete :
    let first  := (Sentence.empty.parse .any (Ascii.ofString "AIVDM,2,1,3,A,w,0*61\n")).1
    let second := (Sentence.empty.parse .any (Ascii.ofString "AIVDM,2,2,3,B,0h,2*4C\n")).1
    (∀ x ∈ [(Message.empty, first)], x.2.IsRead) ∧ second.IsRead ∧
      ∃ a' m', (empty.feed [(Message.empty, first)]).process .empty second = (a', m', .complete) ∧
        m'.Joins [first, second] := by
  intro first second
  have hfirst : ∀ x ∈ [(Message.empty, first)], x.2.IsRead := fun x hx => by
    rw [List.mem_singleton.mp hx]
    exact Sentence.isRead_parse 20 rfl
  have hsecond : second.IsRead := Sentence.isRead_parse 21 rfl
  obtain ⟨a', m', o, hprocess, hpart, -, -⟩ :=
    complete_iff_in_order [(Message.empty, first)] hfirst .empty hsecond
  obtain ⟨hiff, hjoins⟩ := hpart (by decide +kernel) (by decide +kernel)
  have hgroup : (([first] ++ [second]).filter (·.goesTo second.slot)).rtake second.count.toNat =
      [first, second] := by decide +kernel
  have ho : o = .complete := hiff.mpr ⟨by decide +kernel, by
    rw [List.map_singleton, hgroup]
    exact ⟨⟨by decide +kernel, by decide +kernel⟩, by decide +kernel⟩⟩
  subst ho
  refine ⟨hfirst, hsecond, a', m', hprocess, ?_⟩
  rw [← hgroup]
  exact hjoins rfl

end Assembly

end Ais
