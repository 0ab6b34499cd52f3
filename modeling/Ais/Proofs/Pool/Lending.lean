import Mathlib.Data.List.Perm.Basic
import Mathlib.Data.List.Range
import Ais.Proofs.Pool

/-!
# Pools — the books

A pool and those who hold its batches (`Lending`).  They may ask for a batch, give one back, have
some made ahead of need, and write what they like into those they hold, in any order.  Every batch
made is in one place all along, with the pool or with one holder, and there are never more of them
than the limit says (`Balanced`).  Hence `books_balance`: what is lent, when nothing is, and how many
batches can be made ahead.

What is lent is the spare batch that came last.  It need not be the one that was given back last:
batches made ahead of need lie on those given back before (`lends_made_over_returned`).
-/

namespace Ais

/-! ### Batches made ahead of need -/

namespace Pool

variable {α : Type} {n : Nat}

/-- How many of so many new batches the limit allows. -/
def allows (p : Pool α n) (count : Nat) : Nat :=
  match p.limit with
  | none   => count
  | some m => min count (m - p.allocated)

/-- A pool that has reached its limit may make none. -/
theorem allows_of_isExhausted {p : Pool α n} (h : p.isExhausted = true) (count : Nat) :
    p.allows count = 0 := by
  unfold isExhausted at h
  unfold allows
  cases hlimit : p.limit with
  | none =>
      rw [hlimit] at h
      cases h
  | some m =>
      have hle : m ≤ p.allocated := by simpa [hlimit] using h
      simp only [Nat.sub_eq_zero_of_le hle, Nat.min_zero]

/-- Where one more is allowed, it is the first of them. -/
theorem allows_succ {p q : Pool α n} (h : p.isExhausted = false)
    (hallocated : q.allocated = p.allocated + 1) (hlimit : q.limit = p.limit) (count : Nat) :
    p.allows (count + 1) = q.allows count + 1 := by
  unfold isExhausted at h
  unfold allows
  rw [hlimit, hallocated]
  cases hlimit : p.limit with
  | none => rfl
  | some m =>
      have hlt : p.allocated < m := by simpa [hlimit] using h
      simp only
      omega

variable [Inhabited α]

/-- New batches, the last one made first; `first` had been made before. -/
def newest (α : Type) (n : Nat) [Inhabited α] (first : Nat) : (count : Nat) → List (Buffer α n)
  | 0         => []
  | count + 1 => ⟨first + count, .empty α n⟩ :: newest α n first count

/-- The batch made first is the last of them. -/
theorem newest_succ (first count : Nat) :
    newest α n first (count + 1) = newest α n (first + 1) count ++ [⟨first, .empty α n⟩] := by
  induction count with
  | zero => rfl
  | succ count ih =>
      rw [newest, ih, newest, List.cons_append, Nat.add_right_comm]
      rfl

theorem length_newest (first count : Nat) : (newest α n first count).length = count := by
  induction count with
  | zero => rfl
  | succ count ih => rw [newest, List.length_cons, ih]

/-- New batches have the next numbers, and nothing is in them. -/
theorem mem_newest {first count : Nat} {b : Buffer α n} (h : b ∈ newest α n first count) :
    b.serial < first + count ∧ b.batch.items = [] := by
  induction count with
  | zero => cases h
  | succ count ih =>
      rcases List.mem_cons.mp h with rfl | h
      · exact ⟨Nat.lt_succ_self _, Batch.items_empty⟩
      · exact ⟨Nat.lt_succ_of_lt (ih h).1, (ih h).2⟩

/-- The numbers of new batches follow on those of the old ones. -/
theorem newest_perm {first : Nat} {serials : List Nat} (h : serials.Perm (List.range first))
    (count : Nat) :
    ((newest α n first count).map Buffer.serial ++ serials).Perm (List.range (first + count)) := by
  induction count with
  | zero => exact h
  | succ count ih =>
      rw [newest, List.map_cons, List.cons_append, ← Nat.add_assoc, List.range_succ]
      exact (ih.cons _).trans (List.perm_append_singleton _ _).symm

/-- **Batches are made ahead as far as the limit allows**, and lie on those that were spare. -/
theorem prefill_eq (p : Pool α n) (count : Nat) :
    p.prefill count =
      (⟨newest α n p.allocated (p.allows count) ++ p.spare, p.allocated + p.allows count, p.limit⟩,
        if p.allows count < count then .error (.poolExhausted (p.allocated + p.allows count))
        else .ok ()) := by
  induction count generalizing p with
  | zero =>
      have hallows : p.allows 0 = 0 := by
        unfold allows
        split <;> simp
      rw [hallows]
      rfl
  | succ count ih =>
      rw [prefill, allocate]
      cases hexhausted : p.isExhausted with
      | true =>
          rw [allows_of_isExhausted hexhausted]
          rfl
      | false =>
          rw [allows_succ (q := ⟨⟨p.allocated, .empty α n⟩ :: p.spare, p.allocated + 1, p.limit⟩)
            hexhausted rfl rfl, newest_succ, List.append_assoc]
          simp only [Bool.false_eq_true, if_false, ih, Nat.succ_lt_succ_iff]
          rw [Nat.add_right_comm p.allocated 1, ← Nat.add_assoc]
          rfl

end Pool

/-! ### What is done with a pool -/

/-- How a batch came to be spare; its number. -/
inductive Coming where
  /-- It was given back. -/
  | returned (serial : Nat)
  /-- It was made ahead of need. -/
  | made (serial : Nat)
deriving DecidableEq

def Coming.serial : Coming → Nat
  | returned serial => serial
  | made serial     => serial

/-- A pool and those who hold its batches. -/
structure Lending (α : Type) (n : Nat) where
  pool    : Pool α n
  /-- The batches lent, the last one first. -/
  held    : List (Buffer α n)
  /-- How batches came to be spare so far, the last one first. -/
  comings : List Coming

namespace Lending

/-- One thing that is done.  Who does it, and through which handle of the pool, makes no
difference. -/
inductive Act (α : Type) (n : Nat) where
  | acquire
  /-- The batch held at this place is given back. -/
  | release (place : Nat)
  | prefill (count : Nat)
  /-- Its holder has the batch at this place hold this. -/
  | write (place : Nat) (batch : Batch α n)

variable {α : Type} {n : Nat}

/-- A new pool. -/
def start (limit : Option Nat) : Lending α n := ⟨.empty limit, [], []⟩

def act [Inhabited α] (l : Lending α n) : Act α n → Lending α n
  | .acquire =>
    match l.pool.acquire with
    | .error _      => l
    | .ok (b, pool) => { l with pool, held := b :: l.held }
  | .release place =>
    match l.held[place]? with
    | none   => l
    | some b =>
      { pool    := l.pool.release b
        held    := l.held.eraseIdx place
        comings := .returned b.serial :: l.comings }
  | .prefill count =>
    let pool := (l.pool.prefill count).1
    let made := Pool.newest α n l.pool.allocated (pool.allocated - l.pool.allocated)
    { l with pool, comings := made.map (.made ·.serial) ++ l.comings }
  | .write place batch => { l with held := l.held.modify place ({ · with batch }) }

def run [Inhabited α] (l : Lending α n) (acts : List (Act α n)) : Lending α n := acts.foldl act l

/-- How many batches have come to be spare since this one last did. -/
def since (l : Lending α n) (b : Buffer α n) : Nat :=
  (l.comings.map Coming.serial).idxOf b.serial

/-! ### The books -/

/-- The numbers of spare batches stand in the order in which the batches came, the last one first. -/
def Stacked (spare comings : List Nat) : Prop := spare.Pairwise (comings.idxOf · < comings.idxOf ·)

/-- A batch that comes lies on the others. -/
theorem Stacked.push {spare comings : List Nat} (h : Stacked spare comings) {s : Nat}
    (hs : s ∉ spare) : Stacked (s :: spare) (s :: comings) := by
  have hlater : ∀ t ∈ spare, (s :: comings).idxOf t = comings.idxOf t + 1 := fun t ht =>
    List.idxOf_cons_ne comings fun e => hs (e ▸ ht)
  refine List.pairwise_cons.mpr ⟨fun t ht => ?_, h.imp_of_mem fun {t u} ht hu hlt => ?_⟩
  · rw [List.idxOf_cons_self, hlater t ht]
    exact Nat.succ_pos _
  · rw [hlater t ht, hlater u hu]
    exact Nat.succ_lt_succ hlt

/-- Batches made ahead of need come one after the other. -/
theorem Stacked.newest [Inhabited α] {spare comings : List Nat} (h : Stacked spare comings)
    {first : Nat} (hbelow : ∀ s ∈ spare, s < first) (count : Nat) :
    Stacked ((Pool.newest α n first count).map Buffer.serial ++ spare)
      ((Pool.newest α n first count).map Buffer.serial ++ comings) := by
  induction count with
  | zero => exact h
  | succ count ih =>
      refine ih.push fun hmem => ?_
      rcases List.mem_append.mp hmem with hmem | hmem
      · obtain ⟨b, hb, heq⟩ := List.mem_map.mp hmem
        exact absurd (Pool.mem_newest hb).1 (heq ▸ Nat.lt_irrefl _)
      · exact absurd (hbelow _ hmem) (Nat.not_lt.mpr (Nat.le_add_right first count))

/-- The books balance. -/
structure Balanced (limit : Option Nat) (l : Lending α n) : Prop where
  limit_eq : l.pool.limit = limit
  /-- Each of the batches made is in one place. -/
  places   : ((l.pool.spare ++ l.held).map Buffer.serial).Perm (List.range l.pool.allocated)
  le_limit : ∀ {m}, limit = some m → l.pool.allocated ≤ m
  clean    : l.pool.Clean
  stacked  : Stacked (l.pool.spare.map Buffer.serial) (l.comings.map Coming.serial)

namespace Balanced

variable {limit : Option Nat} {l : Lending α n}

/-- A new pool has made nothing and lent nothing. -/
theorem start : Balanced limit (start limit : Lending α n) where
  limit_eq := rfl
  places   := .nil
  le_limit := fun _ => Nat.zero_le _
  clean    := fun _ h => absurd h List.not_mem_nil
  stacked  := .nil

/-- No batch is in two places. -/
theorem nodup (h : Balanced limit l) : ((l.pool.spare ++ l.held).map Buffer.serial).Nodup :=
  h.places.nodup_iff.mpr List.nodup_range

/-- The batches made are the spare ones and those held. -/
theorem allocated_eq (h : Balanced limit l) :
    l.pool.allocated = l.pool.available + l.held.length := by
  have hlength := h.places.length_eq
  rw [List.length_map, List.length_append, List.length_range] at hlength
  exact hlength.symm

/-- A pool is exhausted just when it has made as many as its limit. -/
theorem isExhausted_iff (h : Balanced limit l) :
    l.pool.isExhausted = true ↔ limit = some l.pool.allocated := by
  rw [Pool.isExhausted, h.limit_eq]
  cases hlimit : limit with
  | none => simp
  | some m =>
      have := h.le_limit hlimit
      simp only [Option.any_some, decide_eq_true_eq, Option.some.injEq]
      omega

variable [Inhabited α]

/-- A batch that is lent goes from one place to another, or is new. -/
theorem acquire (h : Balanced limit l) : Balanced limit (l.act .acquire) := by
  rw [act]
  rcases l.pool.acquire_cases with ⟨b, bs, hspare, hok⟩ | ⟨hspare, hexhausted, hok⟩ | ⟨-, -, herror⟩
  · -- a spare batch goes to its holder
    have hstacked := h.stacked
    have hplaces := h.places
    rw [hspare] at hstacked hplaces
    rw [hok]
    exact ⟨h.limit_eq, (List.perm_middle.map _).trans hplaces, h.le_limit, (h.clean.acquire hok).2,
      (List.pairwise_cons.mp hstacked).2⟩
  · -- a new batch has the next number
    have hplaces := h.places
    rw [hspare, List.nil_append] at hplaces
    have hbelow := mt h.isExhausted_iff.mpr (by simp [hexhausted])
    rw [hok]
    refine ⟨h.limit_eq, ?_, fun {m} hm => ?_, (h.clean.acquire hok).2, .nil⟩
    · simp only [List.nil_append, List.map_cons, List.range_succ]
      exact (hplaces.cons _).trans (List.perm_append_singleton _ _).symm
    · exact Nat.lt_of_le_of_ne (h.le_limit hm) fun e => hbelow (e ▸ hm)
  · rw [herror]
    exact h

/-- A batch that is given back comes last. -/
theorem release (h : Balanced limit l) (place : Nat) : Balanced limit (l.act (.release place)) := by
  rw [act]
  cases hheld : l.held[place]? with
  | none => exact h
  | some b =>
      obtain ⟨hplace, rfl⟩ := List.getElem?_eq_some_iff.mp hheld
      -- what is held is not spare
      have hnot : l.held[place].serial ∉ l.pool.spare.map Buffer.serial := fun hmem => by
        have hnodup := h.nodup
        rw [List.map_append] at hnodup
        exact (List.nodup_append.mp hnodup).2.2 _ hmem _
          (List.mem_map_of_mem (List.getElem_mem hplace)) rfl
      refine ⟨h.limit_eq, ?_, h.le_limit, h.clean.release _, h.stacked.push hnot⟩
      have hheld := (List.getElem_cons_eraseIdx_perm hplace).map Buffer.serial
      have hplaces := h.places
      rw [List.map_append] at hplaces ⊢
      exact (List.perm_middle.symm.trans (hheld.append_left _)).trans hplaces

/-- Batches made ahead of need have new numbers, and come last. -/
theorem prefill (h : Balanced limit l) (count : Nat) : Balanced limit (l.act (.prefill count)) := by
  have hbelow : ∀ s ∈ l.pool.spare.map Buffer.serial, s < l.pool.allocated := fun s hs =>
    List.mem_range.mp (h.places.subset (List.map_append ▸ List.mem_append_left _ hs))
  have hclean : ∀ b ∈ Pool.newest α n l.pool.allocated (l.pool.allows count) ++ l.pool.spare,
      b.batch.items = [] := fun b hb =>
    (List.mem_append.mp hb).elim (fun hb => (Pool.mem_newest hb).2) (h.clean b)
  rw [act, Pool.prefill_eq]
  simp only [Nat.add_sub_cancel_left]
  refine ⟨h.limit_eq, ?_, fun {m} hm => ?_, hclean, ?_⟩
  · have hplaces := h.places
    rw [List.append_assoc, List.map_append]
    exact Pool.newest_perm hplaces _
  · have := h.le_limit hm
    simp only [Pool.allows, h.limit_eq, hm]
    omega
  · rw [List.map_append, List.map_append, List.map_map]
    exact h.stacked.newest hbelow _

/-- What is written into a batch changes no place. -/
theorem write (h : Balanced limit l) (place : Nat) (batch : Batch α n) :
    Balanced limit (l.act (.write place batch)) := by
  have hserials : (l.held.modify place ({ · with batch })).map Buffer.serial =
      l.held.map Buffer.serial := by
    refine List.ext_getElem? fun j => ?_
    rw [List.getElem?_map, List.getElem?_map, List.getElem?_modify]
    cases l.held[j]? with
    | none => rfl
    | some b => by_cases hj : place = j <;> simp [hj]
  refine ⟨h.limit_eq, ?_, h.le_limit, h.clean, h.stacked⟩
  have hplaces := h.places
  rw [List.map_append] at hplaces
  rw [act, List.map_append, hserials]
  exact hplaces

/-- **Whatever is done keeps the books balanced.** -/
theorem act (h : Balanced limit l) (a : Act α n) : Balanced limit (l.act a) := by
  cases a with
  | acquire => exact h.acquire
  | release place => exact h.release place
  | prefill count => exact h.prefill count
  | write place batch => exact h.write place batch

/-- So does any run. -/
theorem run (h : Balanced limit l) (acts : List (Act α n)) : Balanced limit (l.run acts) := by
  induction acts generalizing l with
  | nil => exact h
  | cons a acts ih => exact ih (h.act a)

end Balanced

variable [Inhabited α]

/-- Batches are not unmade. -/
theorem allocated_act (l : Lending α n) (a : Act α n) :
    l.pool.allocated ≤ (l.act a).pool.allocated := by
  cases a with
  | acquire =>
      rw [act]
      rcases l.pool.acquire_cases with ⟨b, bs, -, hok⟩ | ⟨-, -, hok⟩ | ⟨-, -, herror⟩
      · rw [hok]
      · rw [hok]
        exact Nat.le_succ _
      · rw [herror]
  | release place =>
      rw [act]
      cases l.held[place]? <;> exact Nat.le_refl _
  | prefill count =>
      rw [act, Pool.prefill_eq]
      exact Nat.le_add_right _ _
  | write place batch => exact Nat.le_refl _

/-- Nor are they in a run. -/
theorem allocated_run (l : Lending α n) (acts : List (Act α n)) :
    l.pool.allocated ≤ (l.run acts).pool.allocated := by
  induction acts generalizing l with
  | nil => exact Nat.le_refl _
  | cons a acts ih => exact (l.allocated_act a).trans (ih _)

/-! ### What a pool has to give -/

/-- What the pool lends next. -/
structure Lends (limit : Option Nat) (l : Lending α n) : Prop where
  /-- If batches are spare, the one of them that came last. -/
  reuses  : ∀ {b bs}, l.pool.spare = b :: bs →
    l.pool.acquire = .ok (b, { l.pool with spare := bs }) ∧ ∀ c ∈ bs, l.since b < l.since c
  /-- If none is, a new one. -/
  makes   : l.pool.spare = [] → limit ≠ some l.pool.allocated →
    l.pool.acquire = .ok (⟨l.pool.allocated, .empty α n⟩, ⟨[], l.pool.allocated + 1, limit⟩)
  /-- Nothing, just when none is spare and there may be no more. -/
  refuses : (∃ f, l.pool.acquire = .error f) ↔ l.pool.spare = [] ∧ limit = some l.pool.allocated
  /-- The limit is reported, and nothing changes. -/
  reports : ∀ {f}, l.pool.acquire = .error f →
    ∃ m, limit = some m ∧ f = .poolExhausted m ∧ l.act .acquire = l
  /-- Nothing is in the batch that is lent. -/
  blank   : ∀ {b pool}, l.pool.acquire = .ok (b, pool) →
    b.batch.size = 0 ∧ b.batch.processed = 0

/-- **What a pool lends** where the books balance. -/
theorem Balanced.lends {limit : Option Nat} {l : Lending α n} (h : Balanced limit l) :
    Lends limit l where
  reuses := fun {b bs} hspare => by
    have hstacked := h.stacked
    rw [hspare] at hstacked
    refine ⟨?_, fun c hc => (List.pairwise_cons.mp hstacked).1 _ (List.mem_map_of_mem hc)⟩
    rw [Pool.acquire, Pool.takeSpare?, hspare]
  makes := fun hspare hlimit => by
    have hexhausted : l.pool.isExhausted = false :=
      Bool.eq_false_iff.mpr (mt h.isExhausted_iff.mp hlimit)
    rw [Pool.acquire, Pool.takeSpare?, hspare]
    simp only [Pool.allocate, hexhausted, hspare, h.limit_eq, Bool.false_eq_true, if_false]
  refuses := by
    constructor
    · rintro ⟨f, herror⟩
      obtain ⟨hspare, hexhausted, -⟩ := Pool.acquire_error herror
      exact ⟨hspare, h.isExhausted_iff.mp hexhausted⟩
    · rintro ⟨hspare, hlimit⟩
      have hexhausted := h.isExhausted_iff.mpr hlimit
      refine ⟨.poolExhausted l.pool.allocated, ?_⟩
      rw [Pool.acquire, Pool.takeSpare?, hspare]
      simp only [Pool.allocate, hexhausted, if_true]
  reports := fun {f} herror => by
    obtain ⟨-, hexhausted, hf⟩ := Pool.acquire_error herror
    exact ⟨_, h.isExhausted_iff.mp hexhausted, hf, by rw [Lending.act, herror]⟩
  blank := fun {b pool} hok => by
    have hsize := Batch.size_of_items_nil (h.clean.acquire hok).1
    exact ⟨hsize, Nat.le_zero.mp (hsize ▸ b.batch.processed_le)⟩

/-- What the pool makes ahead of need: all of `count` batches, or as many as the limit allows. -/
structure Makes (limit : Option Nat) (l : Lending α n) (count : Nat) : Prop where
  allows    : l.pool.allows count = limit.elim count fun m => min count (m - l.pool.allocated)
  allocated : (l.pool.prefill count).1.allocated = l.pool.allocated + l.pool.allows count
  available : (l.pool.prefill count).1.available = l.pool.available + l.pool.allows count
  /-- It is said when they are fewer. -/
  refuses   : (∃ f, (l.pool.prefill count).2 = .error f) ↔ l.pool.allows count < count
  reports   : ∀ {f}, (l.pool.prefill count).2 = .error f →
    ∃ m, limit = some m ∧ f = .poolExhausted m

/-- **What a pool makes ahead of need** where the books balance. -/
theorem Balanced.makes {limit : Option Nat} {l : Lending α n} (h : Balanced limit l)
    (count : Nat) : Makes limit l count where
  allows := by
    rw [Pool.allows, h.limit_eq]
    cases limit <;> rfl
  allocated := by rw [Pool.prefill_eq]
  available := by
    rw [Pool.prefill_eq, Pool.available, List.length_append, Pool.length_newest, Nat.add_comm]
    rfl
  refuses := by
    rw [Pool.prefill_eq]
    by_cases hfew : l.pool.allows count < count <;> simp [hfew]
  reports := fun {f} herror => by
    rw [Pool.prefill_eq] at herror
    by_cases hfew : l.pool.allows count < count
    · cases hlimit : limit with
      | none => simp [Pool.allows, h.limit_eq, hlimit] at hfew
      | some m =>
          have := h.le_limit hlimit
          simp only [hfew, if_true, Except.error.injEq] at herror
          refine ⟨m, rfl, herror.symm.trans (congrArg _ ?_)⟩
          simp only [Pool.allows, h.limit_eq, hlimit] at hfew ⊢
          omega
    · simp [hfew] at herror

/-- **The books balance**, whatever is done with a pool and its batches.  No batch is in two places,
and those made are the spare ones and those held.  Batches are never unmade, and never more than the
limit.  What is lent is the spare batch that came last, by being given back or by being made ahead of
need; where none is spare, a new one; and nothing just when the limit is reached.  Ahead of need as
many batches are made as the limit allows, which is said if they are fewer than asked for. -/
theorem books_balance (limit : Option Nat) (acts : List (Act α n)) :
    let l := (start limit).run acts
    ((l.pool.spare ++ l.held).map Buffer.serial).Nodup ∧
      l.pool.allocated = l.pool.available + l.held.length ∧
      (∀ m, limit = some m → l.pool.allocated ≤ m) ∧
      (∀ more, l.pool.allocated ≤ (l.run more).pool.allocated) ∧
      Lends limit l ∧ ∀ count, Makes limit l count := by
  intro l
  have h : Balanced limit l := Balanced.start.run acts
  exact ⟨h.nodup, h.allocated_eq, fun _ => h.le_limit, l.allocated_run, h.lends, h.makes⟩

/-- A batch was given back, and it is spare; but the one made ahead of need since then is lent. -/
theorem lends_made_over_returned :
    let l := (start none : Lending Nat 4).run [.acquire, .release 0, .prefill 1]
    l.comings = [.made 1, .returned 0] ∧ l.pool.spare.map Buffer.serial = [1, 0] ∧
      ∃ b pool, l.pool.acquire = .ok (b, pool) ∧ b.serial = 1 :=
  ⟨by decide, by decide, _, _, rfl, rfl⟩

end Lending

end Ais
