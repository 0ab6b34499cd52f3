import Ais.Proofs.Station.Step

/-!
# Station — the pools suffice

Each batch of a pool is spare, or in the channel, or in the hands of whoever puts into the channel
or of whoever takes out of it, and neither holds more than one (`Stock`).  Whoever puts asks for a
batch only when it has seen that there is room, and nobody else puts.  So when no batch is spare,
there are no more of them than the channel has slots, and when a new one is made it is one of at
most two more: a limit of two above the capacity is never met (`Stock.allocate_ok`).

Every act keeps the accounts of the three pools (`Supplied`); hence no act of a station with valid
settings, whose consumer holds one batch at a time, ever finds a pool exhausted: `pools_suffice`.
-/

namespace Ais

/-- Where the putting side of a channel stands. -/
inductive Making
  /-- It holds nothing. -/
  | away
  /-- It has seen that there is room. -/
  | seeking
  /-- It has seen that no batch is spare. -/
  | wanting
  /-- It holds a batch to be put. -/
  | holding
deriving DecidableEq

/-- How many batches the putting side holds. -/
def Making.hands : Making → Nat
  | holding => 1
  | _       => 0

/-- The accounts of a pool and the channel its batches go through: `m` is where the putting side
stands, and the taking side holds `taken` batches. -/
structure Stock {α : Type} {n : Nat} (slots : Nat) (pool : Pool α n) (link : Link α n)
    (m : Making) (taken : Nat) : Prop where
  limit    : ∀ l, pool.limit = some l → slots + 2 ≤ l
  capacity : link.ring.capacity = slots
  balance  : pool.allocated = pool.available + link.contents.length + m.hands + taken
  taken_le : taken ≤ 1
  room     : m ≠ .away → link.contents.length < slots
  scarce   : m = .wanting → pool.allocated ≤ slots

namespace Stock

variable {α : Type} {n c taken : Nat} {pool pool' : Pool α n} {link link' : Link α n} {m : Making}
  {b : Buffer α n}

/-! ### The putting side -/

/-- Whoever holds nothing may turn away. -/
theorem leave (h : Stock c pool link m taken) (hm : m.hands = 0) :
    Stock c pool link .away taken where
  limit    := h.limit
  capacity := h.capacity
  balance  := by rw [h.balance, hm]; rfl
  taken_le := h.taken_le
  room     := fun hne => absurd rfl hne
  scarce   := by rintro ⟨⟩

theorem findRoom (h : Stock c pool link .away taken)
    (room : link.contents.length < link.ring.capacity) : Stock c pool link .seeking taken where
  limit    := h.limit
  capacity := h.capacity
  balance  := h.balance
  taken_le := h.taken_le
  room     := fun _ => h.capacity ▸ room
  scarce   := by rintro ⟨⟩

theorem borrow (h : Stock c pool link .seeking taken) (hb : pool.takeSpare? = some (b, pool')) :
    Stock c pool' link .holding taken := by
  obtain ⟨hspare, hallocated, hlimit⟩ := Pool.takeSpare?_some hb
  refine ⟨hlimit ▸ h.limit, h.capacity, ?_, h.taken_le, fun _ => h.room (by decide), by rintro ⟨⟩⟩
  have := h.balance
  simp only [Pool.available, hspare, List.length_cons, Making.hands] at this ⊢
  omega

/-- When no batch is spare, all are in the channel or with the taking side. -/
theorem findNone (h : Stock c pool link .seeking taken) (hspare : pool.spare = []) :
    Stock c pool link .wanting taken := by
  have hroom := h.room (by decide)
  refine ⟨h.limit, h.capacity, h.balance, h.taken_le, fun _ => hroom, fun _ => ?_⟩
  have hbalance := h.balance
  have htaken := h.taken_le
  simp only [Pool.available, hspare, List.length_nil, Making.hands] at hbalance
  omega

/-- **The limit is not met** when a new batch is wanted. -/
theorem allocate_ok [Inhabited α] (h : Stock c pool link .wanting taken) :
    ∃ lent, pool.allocate = .ok lent := by
  have hallocated := h.scarce rfl
  have hexhausted : pool.isExhausted = false := by
    rw [Pool.isExhausted]
    cases hlimit : pool.limit with
    | none => rfl
    | some l =>
        have := h.limit l hlimit
        exact decide_eq_false (by omega)
  exact ⟨_, by rw [Pool.allocate, hexhausted]; rfl⟩

theorem allocate [Inhabited α] (h : Stock c pool link .wanting taken)
    (hb : pool.allocate = .ok (b, pool')) : Stock c pool' link .holding taken := by
  obtain ⟨-, hspare, hallocated, hlimit⟩ := Pool.allocate_ok hb
  refine ⟨hlimit ▸ h.limit, h.capacity, ?_, h.taken_le, fun _ => h.room (by decide), by rintro ⟨⟩⟩
  have := h.balance
  simp only [Pool.available, hspare, Making.hands] at this ⊢
  omega

theorem put (h : Stock c pool link .holding taken) (hgains : link.Gains b link') :
    Stock c pool link' .away taken := by
  refine ⟨h.limit, hgains.capacity.trans h.capacity, ?_, h.taken_le, fun hne => absurd rfl hne,
    by rintro ⟨⟩⟩
  have := h.balance
  simp only [hgains.contents, List.length_append, List.length_singleton, Making.hands] at this ⊢
  omega

/-- A batch that is not put goes back. -/
theorem drop (h : Stock c pool link .holding taken) (b : Buffer α n) :
    Stock c (pool.release b) link .away taken := by
  refine ⟨h.limit, h.capacity, ?_, h.taken_le, fun hne => absurd rfl hne, by rintro ⟨⟩⟩
  have := h.balance
  simp only [Pool.available, Pool.release, List.length_cons, Making.hands] at this ⊢
  omega

/-! ### The taking side -/

theorem take (h : Stock c pool link m 0) (hloses : link.Loses b link') :
    Stock c pool link' m 1 := by
  have hlength := congrArg List.length hloses.contents
  rw [List.length_cons] at hlength
  refine ⟨h.limit, hloses.capacity.trans h.capacity, ?_, Nat.le_refl 1, fun hm => ?_, h.scarce⟩
  · rw [h.balance]
    omega
  · have := h.room hm
    omega

theorem giveBack (h : Stock c pool link m 1) (b : Buffer α n) :
    Stock c (pool.release b) link m 0 := by
  refine ⟨h.limit, h.capacity, ?_, Nat.zero_le 1, h.room, h.scarce⟩
  have := h.balance
  simp only [Pool.available, Pool.release, List.length_cons] at this ⊢
  omega

/-! ### Either side -/

/-- Letting go of the channel changes nothing. -/
theorem congr (h : Stock c pool link m taken) (hcontents : link'.contents = link.contents)
    (hcapacity : link'.ring.capacity = link.ring.capacity) : Stock c pool link' m taken where
  limit    := h.limit
  capacity := hcapacity.trans h.capacity
  balance  := by rw [hcontents]; exact h.balance
  taken_le := h.taken_le
  room     := by rw [hcontents]; exact h.room
  scarce   := h.scarce

theorem fresh {limit : Option Nat} (hlimit : ∀ l, limit = some l → c + 2 ≤ l)
    (hlink : link.Fresh c) : Stock c (Pool.empty limit) link .away 0 where
  limit    := hlimit
  capacity := hlink.capacity
  balance  := by rw [hlink.contents]; rfl
  taken_le := Nat.zero_le 1
  room     := fun hne => absurd rfl hne
  scarce   := by rintro ⟨⟩

end Stock

/-! ### The threads -/

/-- Where the feeder stands before its channel. -/
def Feeder.making {n : Nat} : Feeder n → Making
  | borrow _ _          => .seeking
  | allocate _ _        => .wanting
  | fill ..  | send ..  => .holding
  | _                   => .away

/-- **A step of the feeder keeps the accounts**, and does not find the pool exhausted. -/
theorem Feeder.Step.stock {n c taken : Nat} {f g : Feeder n} {i j : Intake (Link Sentence n) n}
    (h : Step f i g j) (hs : Stock c i.pool i.sink f.making taken)
    (hf : ∀ k, f.fault? ≠ some (.poolExhausted k)) :
    Stock c j.pool j.sink g.making taken ∧ ∀ k, g.fault? ≠ some (.poolExhausted k) := by
  have hfree : ∀ {f : Feeder n}, f.isFree → f.making = .away := fun {f} h => by
    cases f
    case borrow | allocate | fill | send => cases h
    all_goals rfl
  have hnone : ∀ {f : Feeder n}, f.fault? = none → ∀ k, f.fault? ≠ some (.poolExhausted k) :=
    fun h k => by rw [h]; exact nofun
  cases h with
  | rests => exact ⟨hs, hf⟩
  | turns tally hp hq hfault =>
      rw [hfree hp] at hs
      rw [hfree hq]
      refine ⟨hs, fun k => ?_⟩
      rcases hfault with h | h <;> rw [h] <;> simp
  | findsRoom room => exact ⟨Stock.findRoom hs room, hnone rfl⟩
  | borrows h => exact ⟨Stock.borrow hs h, hnone rfl⟩
  | findsNone h => exact ⟨Stock.findNone hs h, hnone rfl⟩
  | allocates h => exact ⟨Stock.allocate hs h, hnone rfl⟩
  | starves h =>
      obtain ⟨lent, hok⟩ := Stock.allocate_ok hs
      rw [h] at hok
      cases hok
  | fills => exact ⟨hs, hnone rfl⟩
  | drops _ hg hfault =>
      rw [hfree hg]
      exact ⟨Stock.drop hs _, hnone hfault⟩
  | sends _ h hg hfault =>
      rw [hfree hg]
      exact ⟨Stock.put hs h, hnone hfault⟩
  | refused => exact ⟨Stock.drop hs _, fun k => by simp [fault?]⟩

namespace Phase

variable {σ α β : Type} {n c t : Nat} [Inhabited β] {v : Conversion σ α β} {exhausted : Bool}
  {p q : Phase α β n} {r r' : Section σ α β n}

/-- Where a worker stands before its sink. -/
def making : Phase α β n → Making
  | .take | .borrow ..    => .seeking
  | .allocate ..          => .wanting
  | .convert .. | .send .. => .holding
  | _                     => .away

/-- How many batches of its source a worker holds. -/
def taken (p : Phase α β n) : Nat := p.input?.toList.length

omit [Inhabited β] in
theorem taken_of_isFree (h : p.isFree) : p.taken = 0 ∧ p.making.hands = 0 ∧ p.fault? = none := by
  cases p
  case borrow | allocate | convert | send | giveBack | closeSink | abandonSource | left => cases h
  all_goals exact ⟨rfl, rfl, rfl⟩

/-- **A step of a worker keeps the accounts of its source.** -/
theorem Step.inputs {m : Making} (h : Step v exhausted p r q r')
    (hs : Stock c r.inputs r.source m p.taken) : Stock c r'.inputs r'.source m q.taken := by
  cases h with
  | turns hp hq =>
      rw [(taken_of_isFree hp).1] at hs
      rcases hq with rfl | rfl <;> exact hs
  | takes h => exact Stock.take hs h
  | starves | refused | givesBack => exact Stock.giveBack hs _
  | abandons => exact hs.congr rfl rfl
  | _ => exact hs

/-- **A step of a worker keeps the accounts of its sink**, and does not find the pool exhausted. -/
theorem Step.outputs (h : Step v exhausted p r q r')
    (hs : Stock c r.outputs r.sink p.making t)
    (hf : ∀ k, p.fault? ≠ some (.poolExhausted k)) :
    Stock c r'.outputs r'.sink q.making t ∧ ∀ k, q.fault? ≠ some (.poolExhausted k) := by
  have hnone : ∀ {p : Phase α β n}, p.fault? = none → ∀ k, p.fault? ≠ some (.poolExhausted k) :=
    fun h k => by rw [h]; exact nofun
  cases h with
  | rests => exact ⟨hs, hf⟩
  | turns hp hq =>
      have hs := hs.leave (taken_of_isFree hp).2.1
      rcases hq with rfl | rfl <;> exact ⟨hs, hnone rfl⟩
  | findsClosed => exact ⟨hs, fun k => by simp [fault?, result?]⟩
  | findsRoom room => exact ⟨Stock.findRoom hs room, hnone rfl⟩
  | borrows h => exact ⟨Stock.borrow hs h, hnone rfl⟩
  | findsNone h => exact ⟨Stock.findNone hs h, hnone rfl⟩
  | allocates h => exact ⟨Stock.allocate hs h, hnone rfl⟩
  | starves h =>
      obtain ⟨lent, hok⟩ := Stock.allocate_ok hs
      rw [h] at hok
      cases hok
  | drops => exact ⟨Stock.drop hs _, hnone rfl⟩
  | sends _ h => exact ⟨Stock.put hs h, hnone rfl⟩
  | refused => exact ⟨Stock.drop hs _, fun k => by simp [fault?, result?]⟩
  | closes => exact ⟨hs.congr rfl rfl, hf⟩
  | abandons => exact ⟨hs, hf⟩
  | takes | converts | ends | looks | givesBack | findsExhausted | findsLast | findsEmpty =>
      exact ⟨hs, hnone rfl⟩

end Phase

/-! ### The station -/

namespace Station

variable {n : Nat}

/-- The accounts of the three pools, and no thread has found its pool exhausted. -/
structure Supplied (s : Station n) (capacity : Nat) : Prop where
  sentences : Stock capacity s.sentencePool s.sentences s.feeder.making s.joiner.phase.taken
  messages  : Stock capacity s.messagePool s.messages s.joiner.phase.making s.opener.phase.taken
  payloads  : Stock capacity s.payloadPool s.payloads s.opener.phase.making s.held.length
  grip      : s.grip = some 1
  feeder    : ∀ k, s.feeder.fault? ≠ some (.poolExhausted k)
  joiner    : ∀ k, s.joiner.phase.fault? ≠ some (.poolExhausted k)
  opener    : ∀ k, s.opener.phase.fault? ≠ some (.poolExhausted k)

variable {s s' : Station n} {a : Act} {c : Nat}

/-- **Every act keeps the accounts of the first pool**, and the feeder does not find it exhausted,
whatever the consumer holds. -/
theorem Step.stock (hstep : Step s a s')
    (hs : Stock c s.sentencePool s.sentences s.feeder.making s.joiner.phase.taken)
    (hf : ∀ k, s.feeder.fault? ≠ some (.poolExhausted k)) :
    Stock c s'.sentencePool s'.sentences s'.feeder.making s'.joiner.phase.taken ∧
      ∀ k, s'.feeder.fault? ≠ some (.poolExhausted k) := by
  cases hstep with
  | offers hidle =>
      have haway : s.feeder.making = .away := by
        cases hfeeder : s.feeder <;> rw [hfeeder] at hidle <;> first | rfl | cases hidle
      rw [haway] at hs
      exact ⟨hs, fun k => by simp [Feeder.fault?]⟩
  | feeds hfeed => exact hfeed.stock hs hf
  | closesInput => exact ⟨hs.congr rfl rfl, hf⟩
  | joins hjoin => exact ⟨hjoin.inputs hs, hf⟩
  | idles | exhausts | closesOutput | dearms | takes | releases => exact ⟨hs, hf⟩

namespace Supplied

/-- **Every act keeps the accounts.** -/
theorem step (h : s.Supplied c) (hstep : Step s a s') : s'.Supplied c := by
  obtain ⟨hs, hf⟩ := hstep.stock h.sentences h.feeder
  cases hstep with
  | idles => exact h
  | offers | feeds | exhausts | closesInput => exact { h with sentences := hs, feeder := hf }
  | closesOutput => exact { h with payloads := h.payloads.congr rfl rfl }
  | joins hjoin =>
      obtain ⟨hm, hf⟩ := hjoin.outputs h.messages h.joiner
      exact { h with sentences := hs, messages := hm, joiner := hf }
  | dearms hdearm =>
      obtain ⟨hp, hf⟩ := hdearm.outputs h.payloads h.opener
      exact { h with messages := hdearm.inputs h.messages, payloads := hp, opener := hf }
  | takes hgrip hloses =>
      have hnone : s.held = [] := by
        rw [hasGrip, h.grip] at hgrip
        simpa using hgrip
      have hp := h.payloads
      rw [hnone] at hp
      refine { h with payloads := ?_ }
      rw [hnone]
      exact Stock.take hp hloses
  | releases hheld =>
      have hp := h.payloads
      have hnone := hp.taken_le
      rw [hheld] at hp hnone
      obtain rfl : _ = [] := by simpa using hnone
      exact { h with payloads := Stock.giveBack hp _ }

theorem run (h : s.Supplied c) (htidy : s.Tidy) (acts : List Act) : (s.run acts).Supplied c := by
  induction acts generalizing s with
  | nil            => exact h
  | cons a acts ih => exact ih (h.step (htidy.act_step a)) (htidy.act a)

end Supplied

theorem Blank.stock {s : Station n} {settings : Settings} {grip : Option Nat}
    (h : s.Blank settings grip)
    (hlimit : ∀ l, settings.poolLimit = some l → settings.queueCapacity + 2 ≤ l) :
    Stock settings.queueCapacity s.sentencePool s.sentences s.feeder.making s.joiner.phase.taken := by
  rw [h.sentencePool, h.feeder, h.joiner]
  exact .fresh hlimit h.sentences

theorem Blank.supplied {s : Station n} {settings : Settings} (h : s.Blank settings (some 1))
    (hlimit : ∀ l, settings.poolLimit = some l → settings.queueCapacity + 2 ≤ l) :
    s.Supplied settings.queueCapacity where
  sentences := h.stock hlimit
  messages  := by
    rw [h.messagePool, h.joiner, h.opener]
    exact .fresh hlimit h.messages
  payloads  := by
    rw [h.payloadPool, h.opener, h.held]
    exact .fresh hlimit h.payloads
  grip      := h.grip
  feeder    := by rw [h.feeder]; exact fun _ => nofun
  joiner    := by rw [h.joiner]; exact fun _ => nofun
  opener    := by rw [h.opener]; exact fun _ => nofun

/-- **A pool limit that settings may have is never met**: whatever the acts of the feeder, the two
workers and a consumer that holds one batch at a time, no thread finds its pool exhausted. -/
theorem pools_suffice (n : Nat) {settings : Settings} (hvalid : settings.validate = .ok ())
    (hlt : settings.queueCapacity < 2 ^ 64) :
    ∃ s : Station n, create n settings (some 1) = .ok s ∧ ∀ (acts : List Act) (k : Nat),
      (s.run acts).feeder.fault? ≠ some (.poolExhausted k) ∧
      (s.run acts).joiner.phase.fault? ≠ some (.poolExhausted k) ∧
      (s.run acts).opener.phase.fault? ≠ some (.poolExhausted k) := by
  obtain ⟨s, hcreate, hblank⟩ := create_blank (n := n) hvalid hlt (some 1)
  refine ⟨s, hcreate, fun acts k => ?_⟩
  have hsupplied :=
    (hblank.supplied (Settings.validate_ok hvalid).2).run hblank.tidy acts
  exact ⟨hsupplied.feeder k, hsupplied.joiner k, hsupplied.opener k⟩

/-- Two slots in each queue, and as few batches as that allows. -/
def tight : Settings := { Settings.default with queueCapacity := 2, poolLimit := some 4 }

/-- Four batches are enough for two slots. -/
theorem pools_suffice_tight :
    tight.validate = .ok () ∧ tight.queueCapacity < 2 ^ 64 ∧
      ∃ s : Station Limits.batchRecords, create Limits.batchRecords tight (some 1) = .ok s ∧
        ∀ (acts : List Act) (k : Nat), (s.run acts).feeder.fault? ≠ some (.poolExhausted k) ∧
          (s.run acts).joiner.phase.fault? ≠ some (.poolExhausted k) ∧
          (s.run acts).opener.phase.fault? ≠ some (.poolExhausted k) :=
  ⟨by decide, by decide, pools_suffice Limits.batchRecords (by decide) (by decide)⟩

end Station

end Ais
