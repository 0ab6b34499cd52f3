import Ais.Proofs.Stage.Conversion

/-!
# Receiver — what is still to come

What will come of sentences and messages on their way through a receiver (`Outcome`): the payloads,
and what will have been counted.  Converting some of them now or later makes no difference.
-/

namespace Ais.Receiver

/-- What comes of the sentences `ss` and of the messages `ms` ahead of them. -/
def outcome (table : Assembly) (ss : List Sentence) (ms : List Message) :
    List (List UInt8 × Nat × Option UInt8) × Tally :=
  let assembled := assembling.run table ss
  let unpacked := dearmouring.run () (ms ++ assembled.2.2)
  (unpacked.2.2.map (·.shown), assembled.2.1 + unpacked.2.1)

/-- What comes of messages shows of what shows of them. -/
theorem dearmouring_congr {ms ms' : List Message} (h : ms.map (·.shown) = ms'.map (·.shown)) :
    (dearmouring.run () ms).2.1 = (dearmouring.run () ms').2.1 ∧
      (dearmouring.run () ms).2.2.map (·.shown) = (dearmouring.run () ms').2.2.map (·.shown) :=
  (dearmouring_lawful.run_congr rfl (fun _ _ => trivial) h).2

/-- What comes of sentences and messages shows of what shows of them. -/
theorem outcome_congr {table table' : Assembly} {ss ss' : List Sentence} {ms ms' : List Message}
    (htable : table.shown = table'.shown) (hvalid : ∀ s ∈ ss, s.HasForm)
    (hss : ss.map (·.shown) = ss'.map (·.shown)) (hms : ms.map (·.shown) = ms'.map (·.shown)) :
    outcome table ss ms = outcome table' ss' ms' := by
  obtain ⟨-, htally, hout⟩ := assembling_lawful.run_congr htable hvalid hss
  have hmessages : (ms ++ (assembling.run table ss).2.2).map (·.shown) =
      (ms' ++ (assembling.run table' ss').2.2).map (·.shown) := by
    rw [List.map_append, List.map_append, hms]
    exact congrArg _ hout
  obtain ⟨htally', hout'⟩ := dearmouring_congr hmessages
  simp only [outcome, htally, htally', hout']

/-- Sentences may be assembled now. -/
theorem outcome_assembled (table : Assembly) (now later : List Sentence) (ms : List Message) :
    outcome table (now ++ later) ms =
      ((outcome (assembling.run table now).1 later (ms ++ (assembling.run table now).2.2)).1,
        (assembling.run table now).2.1 +
          (outcome (assembling.run table now).1 later (ms ++ (assembling.run table now).2.2)).2) := by
  simp only [outcome, Conversion.run_append, List.append_assoc, add_assoc]

/-- Nothing is remembered from one message to the next. -/
theorem dearmouring_append (ms more : List Message) :
    (dearmouring.run () (ms ++ more)).2 =
      ((dearmouring.run () ms).2.1 + (dearmouring.run () more).2.1,
        (dearmouring.run () ms).2.2 ++ (dearmouring.run () more).2.2) := by
  rw [Conversion.run_append]

/-- Messages may have their armour taken off now. -/
theorem outcome_unpacked (table : Assembly) (ss : List Sentence) (now later : List Message) :
    outcome table ss (now ++ later) =
      ((dearmouring.run () now).2.2.map (·.shown) ++ (outcome table ss later).1,
        (dearmouring.run () now).2.1 + (outcome table ss later).2) := by
  simp only [outcome, List.append_assoc, dearmouring_append, List.map_append]
  rw [add_left_comm]

end Ais.Receiver
