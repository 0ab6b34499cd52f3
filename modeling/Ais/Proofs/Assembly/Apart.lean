import Ais.Proofs.Assembly.Shown

/-!
# Assembly — slots keep apart

A table is ten slots, and what one of them does is a matter between it and the sentences that go to
it (`traffic`).  Left alone with these it answers the same and ends the same
(`answers_feed_filter`); sentences of other messages, whole messages and sentences whose checksum
does not hold make no difference, wherever they come between.

* `Slot.run_congr`: what a slot answers shows of what shows of its sentences.
* `slots_keep_apart`: two runs with the same traffic in a slot have the same answers there and leave
  the slot the same; sentences of different slots may change places.
-/

namespace Ais

/-- What comes of a sentence: what became of it, and what shows of the message that is there. -/
abbrev Answer := Outcome × Option (List UInt8 × List UInt8 × Option UInt8 × UInt8)

/-- The answer, of a message record and an outcome.  The record counts where the message is there. -/
def answer (r : Message × Outcome) : Answer :=
  (r.2, if r.2.isComplete then some r.1.shown else none)

theorem answer_congr {r r' : Message × Outcome} (ho : r.2 = r'.2)
    (hm : r.2 = .complete → r.1.shown = r'.1.shown) : answer r = answer r' := by
  rw [answer, answer, ← ho]
  by_cases h : r.2.isComplete = true
  · rw [if_pos h, if_pos h, hm (by simpa [Outcome.isComplete] using h)]
  · rw [if_neg h, if_neg h]

/-! ### One slot alone -/

namespace Slot

/-- The slot after a run of sentences. -/
def feed (slot : Slot) (run : List (Message × Sentence)) : Slot :=
  run.foldl (fun slot x => (slot.take x.1 x.2).1) slot

@[simp] theorem feed_nil (slot : Slot) : slot.feed [] = slot := rfl

@[simp] theorem feed_cons (slot : Slot) (x : Message × Sentence)
    (run : List (Message × Sentence)) :
    slot.feed (x :: run) = (slot.take x.1 x.2).1.feed run := rfl

/-- What the slot answers to a run of sentences. -/
def answers (slot : Slot) : List (Message × Sentence) → List Answer
  | []       => []
  | x :: run => answer (slot.take x.1 x.2).2 :: (slot.take x.1 x.2).1.answers run

/-- A slot does not depend on the message records it is given to fill. -/
theorem take_fst (slot : Slot) (m m' : Message) (s : Sentence) :
    (slot.take m s).1 = (slot.take m' s).1 := by
  simp only [take]
  generalize (if slot.accepts s then slot else slot.reset) = u
  split
  · rfl
  · split
    · rfl
    · split
      · rfl
      · split <;> split <;> rfl

theorem feed_congr (slot : Slot) {run run' : List (Message × Sentence)}
    (h : run.map Prod.snd = run'.map Prod.snd) : slot.feed run = slot.feed run' := by
  induction run generalizing slot run' with
  | nil => rw [List.map_eq_nil_iff.mp h.symm]
  | cons x run ih =>
      cases run' with
      | nil => cases h
      | cons x' run' =>
          obtain ⟨hsame, hmore⟩ := List.cons.inj h
          rw [feed_cons, feed_cons, take_fst slot x.1 x'.1, hsame, ih _ hmore]

/-- **What a slot answers shows of what shows of its sentences.** -/
theorem run_congr {slot slot' : Slot} (h : slot.shown = slot'.shown)
    {run run' : List (Message × Sentence)} (hrun : ∀ x ∈ run, x.2.IsPart)
    (e : run.map (·.2.shown) = run'.map (·.2.shown)) :
    slot.answers run = slot'.answers run' ∧ (slot.feed run).shown = (slot'.feed run').shown := by
  induction run generalizing slot slot' run' with
  | nil =>
      rw [List.map_eq_nil_iff.mp e.symm]
      exact ⟨rfl, h⟩
  | cons x run ih =>
      cases run' with
      | nil => cases e
      | cons x' run' =>
          obtain ⟨hsame, hmore⟩ := List.cons.inj e
          obtain ⟨hx, hrun⟩ := List.forall_mem_cons.mp hrun
          obtain ⟨hslot, houtcome, hmessage⟩ := take_congr h hx hsame x.1 x'.1
          obtain ⟨hanswers, hfeed⟩ := ih hslot hrun hmore
          refine ⟨?_, hfeed⟩
          rw [answers, answers, answer_congr houtcome hmessage, hanswers]

end Slot

/-! ### Ten slots -/

namespace Assembly

/-- What the table answers to those of a run of sentences that go to the slot `id`. -/
def answers (a : Assembly) (id : Nat) : List (Message × Sentence) → List Answer
  | []       => []
  | x :: run =>
    let later := (a.process x.1 x.2).1.answers id run
    if x.2.goesTo id then answer (a.process x.1 x.2).2 :: later else later

variable {id : Nat} (hid : id < Limits.slots) (a : Assembly)

/-- **A table does with a slot's sentences what the slot does alone.** -/
theorem answers_feed_filter (run : List (Message × Sentence)) :
    a.answers id run = a.slots[id].answers (run.filter (·.2.goesTo id)) ∧
      (a.feed run).slots[id] = a.slots[id].feed (run.filter (·.2.goesTo id)) := by
  induction run generalizing a with
  | nil => exact ⟨rfl, rfl⟩
  | cons x run ih =>
      obtain ⟨hanswers, hfeed⟩ := ih (a.process x.1 x.2).1
      rw [slots_process a x.1 x.2 hid] at hanswers hfeed
      rw [answers, feed_cons, hanswers, hfeed, List.filter_cons]
      cases hgoes : x.2.goesTo id with
      | false => exact ⟨rfl, rfl⟩
      | true =>
          obtain ⟨hv, hpart, hslot⟩ := Sentence.goesTo_iff.mp hgoes
          simp only [if_true, process_of_part a x.1 hv hpart hslot hid]
          exact ⟨rfl, rfl⟩

theorem map_filter_traffic (id : Nat) (run : List (Message × Sentence)) :
    (run.filter (·.2.goesTo id)).map Prod.snd = traffic id run := by
  rw [traffic, List.filter_map]
  rfl

/-- The traffic of a slot decides how it ends. -/
theorem slot_of_traffic {run run' : List (Message × Sentence)}
    (h : traffic id run = traffic id run') : (a.feed run).slots[id] = (a.feed run').slots[id] := by
  rw [(answers_feed_filter hid a run).2, (answers_feed_filter hid a run').2]
  exact Slot.feed_congr _ (by rw [map_filter_traffic, map_filter_traffic, h])

/-- The traffic of all slots decides how the table ends. -/
theorem feed_of_traffic {run run' : List (Message × Sentence)}
    (h : ∀ id < Limits.slots, traffic id run = traffic id run') : a.feed run = a.feed run' := by
  have hslots : (a.feed run).slots = (a.feed run').slots :=
    Vector.ext fun id hid => slot_of_traffic hid a (h id hid)
  rw [← show (⟨(a.feed run).slots⟩ : Assembly) = a.feed run from rfl, hslots]

/-- Sentences of different slots may change places. -/
theorem feed_swap {x y : Message × Sentence} (h : x.2.slot ≠ y.2.slot) :
    a.feed [x, y] = a.feed [y, x] := by
  refine feed_of_traffic a fun id _ => ?_
  have hapart : ¬ (x.2.goesTo id = true ∧ y.2.goesTo id = true) := fun ⟨hx, hy⟩ =>
    h ((Sentence.goesTo_iff.mp hx).2.2.trans (Sentence.goesTo_iff.mp hy).2.2.symm)
  simp only [traffic_cons, traffic_nil]
  cases hx : x.2.goesTo id with
  | false => rfl
  | true =>
      have hy : y.2.goesTo id = false := Bool.eq_false_iff.mpr fun hy => hapart ⟨hx, hy⟩
      rw [hy]
      rfl

/-- **Slots keep apart.**  Whatever the table, two runs with the same traffic in a slot have the same
answers there: what became of each sentence, how many were thrown away, and the messages that were
put together.  They leave the slot showing the same, and the same to the last byte of its storage
where the traffic is.  Sentences of different slots may change places. -/
theorem slots_keep_apart (a : Assembly) :
    (∀ {id : Nat} (hid : id < Limits.slots) {run run' : List (Message × Sentence)},
      (∀ x ∈ run, x.2.IsRead) →
      (traffic id run).map (·.shown) = (traffic id run').map (·.shown) →
        a.answers id run = a.answers id run' ∧
        (a.feed run).slots[id].shown = (a.feed run').slots[id].shown ∧
        (traffic id run = traffic id run' →
          (a.feed run).slots[id] = (a.feed run').slots[id])) ∧
    ∀ {x y : Message × Sentence}, x.2.slot ≠ y.2.slot → a.feed [x, y] = a.feed [y, x] := by
  refine ⟨fun {id} hid {run run'} hrun h => ?_, feed_swap a⟩
  have hpart : ∀ x ∈ run.filter (·.2.goesTo id), x.2.IsPart := fun x hx => by
    obtain ⟨hmem, hgoes⟩ := List.mem_filter.mp hx
    exact (hrun x hmem).hasForm.isPart (Sentence.goesTo_iff.mp hgoes).2.1
  rw [← map_filter_traffic, ← map_filter_traffic, List.map_map, List.map_map] at h
  obtain ⟨hanswers, hfeed⟩ := Slot.run_congr (Eq.refl a.slots[id].shown) hpart h
  obtain ⟨hleft, hleft'⟩ := answers_feed_filter hid a run
  obtain ⟨hright, hright'⟩ := answers_feed_filter hid a run'
  refine ⟨?_, ?_, slot_of_traffic hid a⟩
  · rw [hleft, hright, hanswers]
  · rw [hleft', hright', hfeed]

/-- A sentence of another message, a whole message and a sentence with a wrong checksum come between
the two sentences of a message, or do not. -/
theorem slots_keep_apart_between :
    let read (line : String) : Message × Sentence :=
      (.empty, (Sentence.empty.parse .any (Ascii.ofString line)).1)
    let first  := read "AIVDM,2,1,3,A,w,0*61\n"
    let other  := read "AIVDM,2,1,4,A,w,0*66\n"
    let whole  := read "AIVDM,1,1,,A,w0h,2*0B\n"
    let wrong  := read "AIVDM,2,1,3,A,w,0*62\n"
    let second := read "AIVDM,2,2,3,B,0h,2*4C\n"
    let run    := [first, other, whole, wrong, second]
    (∀ x ∈ run, x.2.IsRead) ∧ traffic 3 run = traffic 3 [first, second] ∧
      empty.answers 3 run = empty.answers 3 [first, second] ∧
      (empty.feed run).slots[3] = (empty.feed [first, second]).slots[3] ∧
      first.2.slot ≠ other.2.slot ∧ empty.feed [first, other] = empty.feed [other, first] := by
  intro read first other whole wrong second run
  have hrun : ∀ x ∈ run, x.2.IsRead := by
    simp only [run, List.forall_mem_cons]
    exact ⟨Sentence.isRead_parse 20 rfl, Sentence.isRead_parse 20 rfl, Sentence.isRead_parse 21 rfl,
      Sentence.isRead_parse 20 rfl, Sentence.isRead_parse 21 rfl, List.forall_mem_nil _⟩
  have htraffic : traffic 3 run = traffic 3 [first, second] := by decide +kernel
  have hslot : first.2.slot ≠ other.2.slot := by decide +kernel
  obtain ⟨hsame, hswap⟩ := slots_keep_apart empty
  obtain ⟨hanswers, -, hleft⟩ :=
    hsame (show 3 < Limits.slots by decide) hrun (congrArg (List.map (·.shown)) htraffic)
  exact ⟨hrun, htraffic, hanswers, hleft htraffic, hslot, hswap hslot⟩

end Assembly

end Ais
