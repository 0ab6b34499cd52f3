import Ais.Proofs.Payload.Shown
import Ais.Proofs.Tally
import Ais.Stage.Relay

/-!
# Conversions — one record at a time

`Conversion.run` converts records one after the other, each into a new slot, without batches and
queues: what the two stages behind the intake come to.  A conversion is `Lawful` if it counts by
adding, and what shows of its results depends on what shows of its arguments alone; not on the slot,
that is, which may have been used (`Lawful.run_of_yields`).  Both conversions are.
-/

namespace Ais

namespace Conversion

variable {σ α β μ ι ο : Type}

/-- Converts records one after the other: what is remembered then, what has been counted, and what
has come out. -/
def run [Inhabited β] (c : Conversion σ α β) (memory : σ) : List α → σ × Tally × List β
  | []      => (memory, 0, [])
  | a :: as =>
    let done := c memory 0 default a
    let (memory, tally, out) := c.run done.memory as
    (memory, done.tally + tally, if done.kept then done.slot :: out else out)

/-- The conversion adds to the tally, and of its results shows what shows of the arguments. -/
structure Lawful (c : Conversion σ α β) (showMemory : σ → μ) (showInput : α → ι)
    (showOutput : β → ο) (Valid : α → Prop) : Prop where
  tally : ∀ memory tally slot a,
    (c memory tally slot a).tally = tally + (c memory 0 slot a).tally
  congr : ∀ {memory memory'} tally tally' slot slot' {a a'}, Valid a →
    showMemory memory = showMemory memory' → showInput a = showInput a' →
    showMemory (c memory tally slot a).memory = showMemory (c memory' tally' slot' a').memory ∧
    (c memory 0 slot a).tally = (c memory' 0 slot' a').tally ∧
    (c memory tally slot a).kept = (c memory' tally' slot' a').kept ∧
    ((c memory tally slot a).kept = true →
      showOutput (c memory tally slot a).slot = showOutput (c memory' tally' slot' a').slot)

variable [Inhabited β] {c : Conversion σ α β}

theorem run_append (memory : σ) (as more : List α) :
    c.run memory (as ++ more) =
      ((c.run (c.run memory as).1 more).1,
        (c.run memory as).2.1 + (c.run (c.run memory as).1 more).2.1,
        (c.run memory as).2.2 ++ (c.run (c.run memory as).1 more).2.2) := by
  induction as generalizing memory with
  | nil => simp [run]
  | cons a as ih =>
      simp only [List.cons_append, run, ih, add_assoc]
      split <;> rfl

variable {showMemory : σ → μ} {showInput : α → ι} {showOutput : β → ο} {Valid : α → Prop}

/-- Runs on records that show the same show the same. -/
theorem Lawful.run_congr (lawful : c.Lawful showMemory showInput showOutput Valid)
    {memory memory' : σ} (hmemory : showMemory memory = showMemory memory') {as as' : List α}
    (hvalid : ∀ a ∈ as, Valid a) (has : as.map showInput = as'.map showInput) :
    showMemory (c.run memory as).1 = showMemory (c.run memory' as').1 ∧
      (c.run memory as).2.1 = (c.run memory' as').2.1 ∧
      (c.run memory as).2.2.map showOutput = (c.run memory' as').2.2.map showOutput := by
  induction as generalizing as' memory memory' with
  | nil =>
      rw [List.map_eq_nil_iff.mp has.symm]
      exact ⟨hmemory, rfl, rfl⟩
  | cons a as ih =>
      cases as' with
      | nil => cases has
      | cons a' as' =>
          rw [List.map_cons, List.map_cons, List.cons.injEq] at has
          obtain ⟨hmemory', htally, hkept, hslot⟩ :=
            lawful.congr 0 0 default default (hvalid a List.mem_cons_self) hmemory has.1
          obtain ⟨hmemory'', htally', hout⟩ :=
            ih hmemory' (fun b hb => hvalid b (List.mem_cons_of_mem a hb)) has.2
          refine ⟨hmemory'', by simp only [run, htally, htally'], ?_⟩
          simp only [run, ← hkept]
          cases h : (c memory 0 default a).kept with
          | true => simp only [if_true, List.map_cons, hslot h, hout]
          | false => simpa using hout

/-! ### Into slots that have been used -/

/-- Records are converted one after the other, each into a slot that may hold anything: what is
remembered and counted then, and what comes out. -/
inductive Yields (c : Conversion σ α β) : σ → Tally → List α → σ → Tally → List β → Prop where
  | nil (memory : σ) (tally : Tally) : Yields c memory tally [] memory tally []
  | cons {memory memory' : σ} {tally tally' : Tally} {a : α} {as : List α} {out : List β} (slot : β)
      (rest : Yields c (c memory tally slot a).memory (c memory tally slot a).tally as memory' tally'
        out) :
      Yields c memory tally (a :: as) memory' tally'
        ((if (c memory tally slot a).kept then [(c memory tally slot a).slot] else []) ++ out)

namespace Yields

omit [Inhabited β]

variable {m₁ m₂ m₃ : σ} {t₁ t₂ t₃ : Tally} {as more : List α} {out out' : List β}

theorem append (h : c.Yields m₁ t₁ as m₂ t₂ out) (h' : c.Yields m₂ t₂ more m₃ t₃ out') :
    c.Yields m₁ t₁ (as ++ more) m₃ t₃ (out ++ out') := by
  induction h with
  | nil => exact h'
  | cons slot _ ih =>
      rw [List.append_assoc]
      exact .cons slot (ih h')

theorem tally_one {a : α} (h : c.Yields m₁ t₁ [a] m₂ t₂ out) :
    ∃ slot, t₂ = (c m₁ t₁ slot a).tally := by
  cases h with
  | cons slot rest =>
      cases rest
      exact ⟨slot, rfl⟩

end Yields

/-- What comes out shows what comes out of new slots. -/
theorem Lawful.run_of_yields (lawful : c.Lawful showMemory showInput showOutput Valid)
    {memory memory' : σ} {tally tally' : Tally} {as : List α} {out : List β}
    (h : c.Yields memory tally as memory' tally' out) (hvalid : ∀ a ∈ as, Valid a) :
    showMemory memory' = showMemory (c.run memory as).1 ∧
      tally' = tally + (c.run memory as).2.1 ∧
      out.map showOutput = (c.run memory as).2.2.map showOutput := by
  induction h with
  | nil memory tally => exact ⟨rfl, (add_zero tally).symm, rfl⟩
  | @cons memory memory' tally tally' a as out slot rest ih =>
      obtain ⟨ha, hvalid'⟩ := List.forall_mem_cons.mp hvalid
      obtain ⟨hmemory, htally, hkept, hslot⟩ :=
        lawful.congr tally 0 slot default ha (Eq.refl (showMemory memory)) rfl
      -- what is remembered shows the same as in the run, and need not be equal
      obtain ⟨hrun, hruntally, hrunout⟩ := lawful.run_congr hmemory hvalid' rfl
      obtain ⟨hmemory', htally', hout⟩ := ih hvalid'
      refine ⟨hmemory'.trans hrun, ?_, ?_⟩
      · rw [htally', lawful.tally, htally, hruntally, add_assoc]
        rfl
      · rw [List.map_append, hout, hrunout]
        simp only [run, ← hkept]
        cases h : (c memory tally slot a).kept with
        | true => simp only [if_true, List.map_cons, List.map_nil, hslot h]; rfl
        | false => rfl

end Conversion

/-! ### The two conversions -/

/-- What an outcome adds to the tally. -/
def Outcome.tally : Outcome → Tally
  | .complete          => Tally.addMessage 0
  | .pending           => 0
  | .badChecksum       => Tally.addChecksumFailure 0
  | .discarded dropped => Tally.addDiscarded 0 dropped

theorem assembling_tally (a : Assembly) (t : Tally) (m : Message) (s : Sentence) :
    (assembling a t m s).tally = t + (a.process m s).2.2.tally := by
  simp only [assembling]
  cases (a.process m s).2.2 with
  | complete => exact t.addMessage_eq
  | pending => exact (add_zero t).symm
  | badChecksum => exact t.addChecksumFailure_eq
  | discarded dropped => exact t.addDiscarded_eq dropped

/-- **Assembling is lawful** for sentences that have been read. -/
theorem assembling_lawful :
    assembling.Lawful Assembly.shown Sentence.shown Message.shown Sentence.HasForm where
  tally a t m s := by rw [assembling_tally, assembling_tally, zero_add]
  congr {a a'} t t' m m' {s s'} hs ha e := by
    obtain ⟨htable, houtcome, hmessage⟩ := Assembly.process_congr ha hs e m m'
    refine ⟨htable, by rw [assembling_tally, assembling_tally, houtcome], ?_, fun hkept => ?_⟩
    · simp only [assembling, houtcome]
    · exact hmessage (by simpa [assembling, Outcome.isComplete] using hkept)

/-- **Taking the armour off is lawful.** -/
theorem dearmouring_lawful :
    dearmouring.Lawful (fun _ : Unit => ()) Message.shown Payload.shown (fun _ => True) where
  tally _ t p m := by
    simp only [dearmouring]
    split
    · exact t.addEmptyPayload_eq
    · exact t.addPayload_eq
  congr {_ _} _ _ p p' {m m'} _ _ e := by
    obtain ⟨hbits, hshown⟩ := Payload.ofMessage_congr p p' e
    simp only [dearmouring, ← hbits]
    by_cases hzero : (p.ofMessage m).2 = 0
    · simp [hzero]
    · simp [hzero, hshown hzero]

end Ais
