import Ais.Proofs.Stage.Twins
import Ais.Proofs.Stage.Relay

/-!
# Relays — two relays side by side

A relay decodes records into slots that have been used, gives back the slots of those that come to
nothing, and remembers records in storage that has been used as well.  If its conversion is lawful,
none of that shows: two relays that stand between twin pools and related ends handle as many
batches, put batches that show the same in their sinks, and count the same (`handle_alike`).
-/

namespace Ais.Relay

variable {S K σ α β μ ι ο : Type} {n : Nat} {c : Conversion σ α β}
  {showMemory : σ → μ} {showInput : α → ι} {showOutput : β → ο} {Valid : α → Prop}
  {In : S → S → Prop} {Out : K → K → Prop}

/-- The relays remember what shows the same, have counted the same, and stand between twin pools
and related ends. -/
structure Twin (showMemory : σ → μ) (In : S → S → Prop) (Out : K → K → Prop)
    (r r' : Relay S K σ α β n) : Prop where
  source  : In r.source r'.source
  inputs  : r.inputs.Twin r'.inputs
  sink    : Out r.sink r'.sink
  outputs : r.outputs.Twin r'.outputs
  memory  : showMemory r.memory = showMemory r'.memory
  tally   : r.tally = r'.tally

/-- Batches of results that show the same. -/
abbrev SameResults (showOutput : β → ο) : Buffer β n → Buffer β n → Prop :=
  Buffer.Twin showOutput fun _ => True

/-- Records that show the same go into batches that show the same, if there is a slot. -/
theorem record?_alike (lawful : c.Lawful showMemory showInput showOutput Valid) {memory memory' : σ}
    (hmemory : showMemory memory = showMemory memory') (tally : Tally) {out out' : Batch β n}
    (hout : out.items.map showOutput = out'.items.map showOutput) {a a' : α} (hvalid : Valid a)
    (ha : showInput a = showInput a') :
    (c.record? memory tally out a = none ∧ c.record? memory' tally out' a' = none) ∨
    ∃ m m' t o o', c.record? memory tally out a = some (m, t, o) ∧
      c.record? memory' tally out' a' = some (m', t, o') ∧ showMemory m = showMemory m' ∧
      o.items.map showOutput = o'.items.map showOutput := by
  cases hfull : out.isFull with
  | true =>
      have hfull' : out'.isFull = true := Batch.isFull_of_shown hout ▸ hfull
      rw [← Batch.claim?_eq_none_iff] at hfull hfull'
      exact .inl ⟨by rw [Conversion.record?, hfull]; rfl, by rw [Conversion.record?, hfull']; rfl⟩
  | false =>
      have hfull' : out'.isFull = false := Batch.isFull_of_shown hout ▸ hfull
      obtain ⟨slot, o, hrecord, hitems⟩ := record?_yields c memory tally hfull a
      obtain ⟨slot', o', hrecord', hitems'⟩ := record?_yields c memory' tally hfull' a'
      obtain ⟨hm, htally, hkept, hslot⟩ := lawful.congr tally tally slot slot' hvalid hmemory ha
      have ht : (c memory tally slot a).tally = (c memory' tally slot' a').tally := by
        rw [lawful.tally, lawful.tally memory', htally]
      refine .inr ⟨_, _, _, o, o', hrecord, ht ▸ hrecord', hm, ?_⟩
      rw [hitems, hitems', List.map_append, List.map_append, hout, ← hkept]
      cases h : (c memory tally slot a).kept with
      | true => simp only [if_true, List.map_cons, List.map_nil, hslot h]
      | false => rfl

variable [Inhabited β] [Sink K (Buffer β n)]

/-- A full batch is handed over, and another taken. -/
theorem swap_alike (agrees : Sink.Agrees (SameResults showOutput) Out) {r r' : Relay S K σ α β n}
    (h : r.Twin showMemory In Out r') {full full' : Buffer β n}
    (hfull : SameResults showOutput full full') :
    EndAlike (Twin showMemory In Out) (SameResults showOutput) (r.swap full) (r'.swap full') := by
  rcases h.outputs.acquire with
    ⟨f, hacquire, hacquire'⟩ | ⟨next, pool, next', pool', hacquire, hacquire', hb, hb', hpool⟩
  · rw [swap, swap, hacquire, hacquire']
    exact .failed ⟨h.source, h.inputs, h.sink, h.outputs.release full full', h.memory, h.tally⟩ _
  · obtain ⟨k, k', o, o', sent, hand, hand', hk, ho⟩ :=
      Stage.handOver_alike agrees h.sink hpool hfull
    simp only [swap, hacquire, hacquire', hand, hand']
    cases sent with
    | error stop =>
        exact .failed ⟨h.source, h.inputs, hk, ho.release next next', h.memory, h.tally⟩ stop
    | ok sent => exact .answered ⟨h.source, h.inputs, hk, ho, h.memory, h.tally⟩ (.of_empty hb hb')

/-- **The records of one batch are converted alike.** -/
theorem convert_alike (lawful : c.Lawful showMemory showInput showOutput Valid)
    (agrees : Sink.Agrees (SameResults showOutput) Out) {as as' : List α}
    (hvalid : ∀ a ∈ as, Valid a) (has : as.map showInput = as'.map showInput)
    {r r' : Relay S K σ α β n} (h : r.Twin showMemory In Out r') {out out' : Buffer β n}
    (hout : SameResults showOutput out out') :
    EndAlike (Twin showMemory In Out) (SameResults showOutput) (convert c r out as)
      (convert c r' out' as') := by
  induction as generalizing as' r r' out out' with
  | nil =>
      rw [List.map_eq_nil_iff.mp has.symm]
      exact .answered h hout
  | cons a as ih =>
      cases as' with
      | nil => cases has
      | cons a' as' =>
          rw [List.map_cons, List.map_cons, List.cons.injEq] at has
          obtain ⟨ha, hvalid'⟩ := List.forall_mem_cons.mp hvalid
          -- a full batch is swapped for another on either side
          have hroom : EndAlike (Twin showMemory In Out) (SameResults showOutput)
              (if out.batch.isFull then r.swap out else (r, .ok out))
              (if out'.batch.isFull then r'.swap out' else (r', .ok out')) := by
            rw [← Batch.isFull_of_shown hout.shown]
            cases out.batch.isFull with
            | true => exact swap_alike agrees h hout
            | false => exact .answered h hout
          rw [convert, convert]
          revert hroom
          generalize (if out.batch.isFull then r.swap out else (r, .ok out)) = x
          generalize (if out'.batch.isFull then r'.swap out' else (r', .ok out')) = x'
          rintro (⟨hs, stop⟩ | @⟨s, s', b, b', hs, hb⟩)
          · exact .failed hs stop
          have hrecord := record?_alike lawful hs.memory s.tally hb.shown ha has.1
          simp only [← hs.tally]
          rcases hrecord with ⟨hnone, hnone'⟩ | ⟨m, m', t, o, o', hsome, hsome', hm, ho⟩
          · rw [hnone, hnone']
            exact .answered hs hb
          · rw [hsome, hsome']
            have hnext : Twin showMemory In Out { s with memory := m, tally := t }
                { s' with memory := m', tally := t } :=
              ⟨hs.source, hs.inputs, hs.sink, hs.outputs, hm, rfl⟩
            have hbatch : SameResults showOutput { b with batch := o } { b' with batch := o' } :=
              ⟨ho, fun _ _ => trivial⟩
            exact ih hvalid' has.2 hnext hbatch

omit [Inhabited β] in
/-- The last batch is handed over, unless nothing is in it. -/
theorem deliver_alike (agrees : Sink.Agrees (SameResults showOutput) Out)
    {r r' : Relay S K σ α β n} (h : r.Twin showMemory In Out r') {out out' : Buffer β n}
    (hout : SameResults showOutput out out') :
    EndAlike (Twin showMemory In Out) Eq (r.deliver out) (r'.deliver out') := by
  rw [deliver, deliver, ← Batch.isEmpty_of_shown hout.shown]
  cases out.batch.isEmpty with
  | true =>
      exact .answered
        ⟨h.source, h.inputs, h.sink, h.outputs.release out out', h.memory, h.tally⟩ rfl
  | false =>
      obtain ⟨k, k', o, o', sent, hand, hand', hk, ho⟩ :=
        Stage.handOver_alike agrees h.sink h.outputs hout
      simp only [Bool.false_eq_true, if_false, hand, hand']
      have hs : Twin showMemory In Out { r with sink := k, outputs := o }
          { r' with sink := k', outputs := o' } :=
        ⟨h.source, h.inputs, hk, ho, h.memory, h.tally⟩
      cases sent with
      | error stop => exact .failed hs stop
      | ok sent => exact .answered hs rfl

/-- One batch is converted and delivered, and goes back to its pool. -/
theorem handleOne_alike (lawful : c.Lawful showMemory showInput showOutput Valid)
    (agrees : Sink.Agrees (SameResults showOutput) Out) {r r' : Relay S K σ α β n}
    (h : r.Twin showMemory In Out r') {input input' : Buffer α n}
    (hinput : Buffer.Twin showInput Valid input input') :
    EndAlike (Twin showMemory In Out) Eq (handleOne c r input) (handleOne c r' input') := by
  have hback : ∀ {s s' : Relay S K σ α β n}, s.Twin showMemory In Out s' →
      Twin showMemory In Out { s with inputs := s.inputs.release input }
        { s' with inputs := s'.inputs.release input' } := fun hs =>
    ⟨hs.source, hs.inputs.release input input', hs.sink, hs.outputs, hs.memory, hs.tally⟩
  rw [handleOne, handleOne]
  rcases h.outputs.acquire with
    ⟨f, hacquire, hacquire'⟩ | ⟨out, pool, out', pool', hacquire, hacquire', hb, hb', hpool⟩
  · rw [hacquire, hacquire']
    exact .failed (hback h) _
  · have hlent : Twin showMemory In Out { r with outputs := pool } { r' with outputs := pool' } :=
      ⟨h.source, h.inputs, h.sink, hpool, h.memory, h.tally⟩
    have hconvert := convert_alike lawful agrees hinput.valid hinput.shown hlent (.of_empty hb hb')
    simp only [hacquire, hacquire']
    revert hconvert
    generalize convert c { r with outputs := pool } out input.batch.items = x
    generalize convert c { r' with outputs := pool' } out' input'.batch.items = x'
    rintro (⟨hs, stop⟩ | ⟨hs, hout⟩)
    · exact .failed (hback hs) stop
    · exact (deliver_alike agrees hs hout).mapState _ _ hback

variable [Source S (Buffer α n)]

/-- **Twin relays handle as many batches**, and are twins then. -/
theorem handle_alike (lawful : c.Lawful showMemory showInput showOutput Valid)
    (takes : Source.Agrees (Buffer.Twin showInput Valid) In)
    (agrees : Sink.Agrees (SameResults showOutput) Out) {r r' : Relay S K σ α β n}
    (h : r.Twin showMemory In Out r') (budget : Nat) :
    EndAlike (Twin showMemory In Out) Eq (handle c r budget) (handle c r' budget) := by
  induction budget generalizing r r' with
  | zero => exact .answered h rfl
  | succ budget ih =>
      rw [handle, handle, Stage.ensureOpen_congr (agrees.isClosed h.sink), ← agrees.isFull h.sink]
      cases Stage.ensureOpen r'.sink with
      | error stop => exact .failed h stop
      | ok _ =>
      cases Sink.isFull r.sink with
      | true => exact .answered h rfl
      | false =>
      have hreceive := takes.receive h.source
      revert hreceive
      generalize Source.receive r.source = x
      generalize Source.receive r'.source = x'
      rintro (⟨hk, dry⟩ | @⟨source, source', input, input', hk, hinput⟩)
      · exact .answered ⟨hk, h.inputs, h.sink, h.outputs, h.memory, h.tally⟩ rfl
      have htaken : Twin showMemory In Out { r with source } { r' with source := source' } :=
        ⟨hk, h.inputs, h.sink, h.outputs, h.memory, h.tally⟩
      have hone := handleOne_alike lawful agrees htaken hinput
      simp only [Bool.false_eq_true, if_false]
      revert hone
      generalize handleOne c { r with source } input = y
      generalize handleOne c { r' with source := source' } input' = y'
      rintro (⟨hs, stop⟩ | @⟨s, s', _, _, hs, -⟩)
      · exact .failed hs stop
      exact (ih hs).map (· + 1)

end Ais.Relay
