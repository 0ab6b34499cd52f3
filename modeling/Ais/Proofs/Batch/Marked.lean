import Ais.Proofs.Batch

/-!
# Batches — a list with a mark

What is done with a batch (`Act`), told of a list.  A `Listing` holds the records that are processed
and the ones that are due, and remembers what was stored at which place.  Records are appended to
those due and dropped at the end, and a mark moves the first of those due to the processed ones.
Storage has no part in it, but for a slot that is claimed and left as it is: that one shows what was
last stored at its place (`lastAt`).

A batch that has been through the same acts holds the same list with the same mark, and its storage
holds at every place what was last stored there (`Shows`).  Each act keeps that (`Shows.act`), hence
`keeps_marked_list`.
-/

namespace Ais.Batch

variable {α : Type} {n : Nat}

/-! ### Acts -/

/-- What is done with a batch. -/
inductive Act (α : Type)
  | push (a : α)
  /-- The next slot is claimed, and written or left as it is. -/
  | claim (written? : Option α)
  | dropBack
  /-- The records are forgotten, as they also are when the batch goes back to its pool. -/
  | clear
  /-- So many more records are processed. -/
  | mark (more : Nat)

/-- What the one who does it is given. -/
inductive Reply (α : Type)
  | done
  /-- No slot is left for the record, which is handed back. -/
  | refused (a : α)
  /-- A slot, which shows this. -/
  | slot (shown : α)
  | noSlot
deriving DecidableEq

def act (b : Batch α n) : Act α → Batch α n × Reply α
  | .push a =>
    match b.push? a with
    | some pushed => (pushed, .done)
    | none        => (b, .refused a)
  | .claim written? =>
    match b.claim? with
    | some (shown, claimed) => (written?.elim claimed claimed.setBack, .slot shown)
    | none                  => (b, .noSlot)
  | .dropBack  => (b.dropBack, .done)
  | .clear     => (b.clear, .done)
  | .mark more => (b.mark more, .done)

def after (b : Batch α n) (acts : List (Act α)) : Batch α n := acts.foldl (fun b a => (b.act a).1) b

/-- What a new batch becomes. -/
def run (n : Nat) [Inhabited α] (acts : List (Act α)) : Batch α n := (empty α n).after acts

/-! ### Lists with a mark -/

/-- A list of records with a mark. -/
structure Listing (α : Type) where
  /-- The records before the mark. -/
  processed : List α
  /-- The records behind it. -/
  due       : List α
  /-- What was stored, and at which place, the newest first. -/
  stored    : List (Nat × α)

namespace Listing

def empty : Listing α := ⟨[], [], []⟩

def items (l : Listing α) : List α := l.processed ++ l.due

/-- The value last stored at a place. -/
def lastAt [Inhabited α] (l : Listing α) (place : Nat) : α := (l.stored.lookup place).getD default

def append (l : Listing α) (a : α) : Listing α := { l with due := l.due ++ [a] }

/-- Appends a record that is stored at its place. -/
def store (l : Listing α) (a : α) : Listing α :=
  { l.append a with stored := (l.items.length, a) :: l.stored }

/-- Drops the last record, be it due or processed. -/
def dropLast (l : Listing α) : Listing α :=
  match l.due with
  | [] => { l with processed := l.processed.dropLast }
  | _  => { l with due := l.due.dropLast }

def clear (l : Listing α) : Listing α := { l with processed := [], due := [] }

/-- The first so many of the records that are due are processed. -/
def mark (l : Listing α) (more : Nat) : Listing α :=
  { l with processed := l.processed ++ l.due.take more, due := l.due.drop more }

/-- The mark falls back with the end of the list, and only there. -/
theorem dropLast_eq (l : Listing α) :
    l.dropLast.items = l.items.dropLast ∧ l.dropLast.stored = l.stored ∧
      l.dropLast.processed.length = min l.processed.length (l.items.length - 1) := by
  unfold dropLast
  split
  case h_1 hdue => simp [items, hdue]
  case h_2 hdue =>
    refine ⟨(List.dropLast_append_of_ne_nil hdue).symm, rfl, ?_⟩
    have := List.length_pos_iff.mpr hdue
    simp only [items, List.length_append]
    omega

/-- A mark drops no record, and adds none. -/
theorem items_mark (l : Listing α) (more : Nat) : (l.mark more).items = l.items := by
  rw [items, mark, List.append_assoc, List.take_append_drop, items]

variable [Inhabited α]

/-- What is done with a list of at most `n` records. -/
def act (n : Nat) (l : Listing α) : Act α → Listing α × Reply α
  | .push a         => if l.items.length < n then (l.store a, .done) else (l, .refused a)
  | .claim written? =>
    let shown := l.lastAt l.items.length
    if l.items.length < n then (written?.elim (l.append shown) l.store, .slot shown)
    else (l, .noSlot)
  | .dropBack       => (l.dropLast, .done)
  | .clear          => (l.clear, .done)
  | .mark more      => (l.mark more, .done)

def after (n : Nat) (l : Listing α) (acts : List (Act α)) : Listing α :=
  acts.foldl (fun l a => (l.act n a).1) l

/-- What the empty list becomes. -/
def run (n : Nat) (acts : List (Act α)) : Listing α := empty.after n acts

end Listing

/-! ### Storage -/

/-- The whole storage, the filled records at its start. -/
def storage (b : Batch α n) : List α := b.items ++ b.spare

@[simp] theorem length_storage (b : Batch α n) : b.storage.length = n := by
  rw [storage, List.length_append, length_items, b.spare_length]

/-- `c` is `b` with one more record, which stands at the next place. -/
structure Appends (b : Batch α n) (a : α) (c : Batch α n) : Prop where
  items     : c.items = b.items ++ [a]
  processed : c.processed = b.processed
  storage   : c.storage = b.storage.set b.size a

/-- A claimed slot is one more record: what it holds, or what is written to it. -/
theorem claim?_of_lt {b : Batch α n} (h : b.size < n) :
    ∃ shown claimed, b.claim? = some (shown, claimed) ∧ b.storage[b.size]? = some shown ∧
      b.Appends shown claimed ∧ ∀ a, b.Appends a (claimed.setBack a) := by
  obtain ⟨shown, claimed, hclaim⟩ :=
    claim?_of_not_isFull (Bool.eq_false_iff.mpr (mt isFull_iff.mp (Nat.ne_of_lt h)))
  refine ⟨shown, claimed, hclaim, ?_⟩
  unfold claim? at hclaim
  split at hclaim
  case h_1 => cases hclaim
  case h_2 rest hspare =>
    cases hclaim
    have hset : ∀ a, b.storage.set b.size a = b.items ++ a :: rest := fun a => by
      rw [storage, hspare, ← b.length_items, List.set_append_right _ _ (Nat.le_refl _)]
      simp
    refine ⟨?_, ⟨List.reverse_cons, rfl, ?_⟩, fun a => ⟨List.reverse_cons, rfl, ?_⟩⟩
    · rw [storage, hspare, ← b.length_items, List.getElem?_append_right (Nat.le_refl _),
        Nat.sub_self]
      rfl
    · rw [hset]
      simp [storage, items]
    · rw [hset]
      simp [storage, items, setBack]

/-- In a full batch no slot can be claimed. -/
theorem claim?_of_not_lt {b : Batch α n} (h : ¬ b.size < n) : b.claim? = none :=
  claim?_eq_none_iff.mpr (isFull_iff.mpr (Nat.le_antisymm b.size_le (Nat.le_of_not_lt h)))

/-- A slot that is given back keeps what it holds. -/
theorem dropBack_eq (b : Batch α n) :
    b.dropBack.items = b.items.dropLast ∧ b.dropBack.storage = b.storage ∧
      b.dropBack.processed = min b.processed (b.size - 1) := by
  unfold dropBack
  split
  case h_1 hfilled =>
    have hsize : b.size = 0 := by rw [← b.filled_length, hfilled, List.length_nil]
    have := b.processed_le
    refine ⟨?_, rfl, ?_⟩
    · rw [items, hfilled]
      rfl
    · omega
  case h_2 hfilled => simp [items, storage, hfilled]

/-- Records that are forgotten stay in storage. -/
theorem storage_clear (b : Batch α n) : b.clear.storage = b.storage := by
  simp [storage, clear, items, List.reverseAux_eq]

/-! ### What a batch shows -/

variable [Inhabited α]

namespace Listing

/-- What is stored is last stored at its place, and changes no other. -/
theorem lastAt_store (l : Listing α) (a : α) (place : Nat) :
    (l.store a).lastAt place = if place = l.items.length then a else l.lastAt place := by
  rw [lastAt, store, List.lookup_cons]
  by_cases h : place = l.items.length
  · rw [if_pos h, beq_iff_eq.mpr h]
    rfl
  · rw [if_neg h, beq_eq_false_iff_ne.mpr h]
    rfl

/-- Leaving a claimed slot as it is changes no place. -/
theorem lastAt_append (l : Listing α) (place : Nat) :
    (l.append (l.lastAt l.items.length)).lastAt place =
      if place = l.items.length then l.lastAt l.items.length else l.lastAt place := by
  split
  case isTrue h  => rw [← h]; rfl
  case isFalse h => rfl

end Listing

/-- The batch holds the list, with its mark, and what was last stored is still there. -/
structure Shows (b : Batch α n) (l : Listing α) : Prop where
  items     : b.items = l.items
  processed : b.processed = l.processed.length
  storage   : ∀ place < n, b.storage[place]? = some (l.lastAt place)

namespace Shows

variable {b c : Batch α n} {l : Listing α}

/-- A new batch shows the empty list. -/
theorem empty (n : Nat) : Shows (Batch.empty α n) .empty where
  items     := rfl
  processed := rfl
  storage   := fun place h => by
    rw [Batch.storage, items_empty, List.nil_append, Listing.lastAt, Listing.empty]
    simp [Batch.empty, h]

/-- They are equally long. -/
theorem size_eq (h : Shows b l) : b.size = l.items.length := by rw [← b.length_items, h.items]

/-- The unprocessed records are those that are due. -/
theorem unprocessed_eq (h : Shows b l) : b.unprocessed = l.due := by
  rw [unprocessed, h.items, h.processed, Listing.items, List.drop_left]

/-- One more record, in a list that has stored it at the next place. -/
theorem appends (h : Shows b l) {a : α} (hc : b.Appends a c) {l' : Listing α}
    (hprocessed : l'.processed = l.processed) (hdue : l'.due = l.due ++ [a])
    (hlast : ∀ place, l'.lastAt place = if place = l.items.length then a else l.lastAt place) :
    Shows c l' where
  items     := by
    rw [hc.items, h.items, Listing.items, Listing.items, hprocessed, hdue, List.append_assoc]
  processed := by rw [hc.processed, h.processed, hprocessed]
  storage   := fun place hplace => by
    rw [hc.storage, List.getElem?_set, hlast, h.size_eq, length_storage]
    by_cases hnext : place = l.items.length
    · rw [if_pos hnext.symm, if_pos (hnext ▸ hplace), if_pos hnext]
    · rw [if_neg (Ne.symm hnext), if_neg hnext, h.storage place hplace]

/-- The last record is dropped from both. -/
theorem dropBack (h : Shows b l) : Shows b.dropBack l.dropLast := by
  obtain ⟨hitems, hstorage, hprocessed⟩ := b.dropBack_eq
  obtain ⟨hlist, hstored, hmark⟩ := l.dropLast_eq
  refine ⟨?_, ?_, fun place hplace => ?_⟩
  · rw [hitems, hlist, h.items]
  · rw [hprocessed, hmark, h.processed, h.size_eq]
  · rw [hstorage, Listing.lastAt, hstored]
    exact h.storage place hplace

/-- The records are forgotten in both. -/
theorem clear (h : Shows b l) : Shows b.clear l.clear where
  items     := rfl
  processed := rfl
  storage   := fun place hplace => b.storage_clear ▸ h.storage place hplace

/-- The mark is moved in both, to the end of the records at most. -/
theorem mark (h : Shows b l) (more : Nat) : Shows (b.mark more) (l.mark more) where
  items     := by rw [Listing.items_mark, ← h.items]; rfl
  processed := by
    have hsize := h.size_eq
    have hprocessed := h.processed
    simp only [Listing.items, List.length_append] at hsize
    simp only [Batch.mark, Listing.mark, List.length_append, List.length_take]
    omega
  storage   := h.storage

/-- **Whatever is done, the batch goes on showing the list**, and gives what the list says. -/
theorem act (h : Shows b l) (a : Act α) :
    Shows (b.act a).1 (l.act n a).1 ∧ (b.act a).2 = (l.act n a).2 := by
  cases a with
  | push a =>
      rw [Batch.act, Listing.act, ← h.size_eq, push?]
      by_cases hroom : b.size < n
      · obtain ⟨shown, claimed, hclaim, -, -, hset⟩ := claim?_of_lt hroom
        rw [hclaim, if_pos hroom]
        exact ⟨h.appends (hset a) rfl rfl (l.lastAt_store a), rfl⟩
      · rw [claim?_of_not_lt hroom, if_neg hroom]
        exact ⟨h, rfl⟩
  | claim written? =>
      rw [Batch.act, Listing.act, ← h.size_eq]
      by_cases hroom : b.size < n
      · obtain ⟨shown, claimed, hclaim, hshown, hleft, hset⟩ := claim?_of_lt hroom
        -- the next place holds what was last stored there
        obtain rfl : shown = l.lastAt b.size :=
          Option.some.inj (hshown.symm.trans (h.storage _ hroom))
        rw [hclaim, if_pos hroom]
        refine ⟨?_, rfl⟩
        cases written? with
        | none =>
            rw [h.size_eq] at hleft ⊢
            exact h.appends hleft rfl rfl l.lastAt_append
        | some a => exact h.appends (hset a) rfl rfl (l.lastAt_store a)
      · rw [claim?_of_not_lt hroom, if_neg hroom]
        exact ⟨h, rfl⟩
  | dropBack  => exact ⟨h.dropBack, rfl⟩
  | clear     => exact ⟨h.clear, rfl⟩
  | mark more => exact ⟨h.mark more, rfl⟩

end Shows

/-- A batch that shows a list goes on showing it, whatever is done with both. -/
theorem Shows.after {b : Batch α n} {l : Listing α} (h : Shows b l) (acts : List (Act α)) :
    Shows (b.after acts) (l.after n acts) := by
  induction acts generalizing b l with
  | nil            => exact h
  | cons a acts ih => exact ih (h.act a).1

/-- What a new batch becomes shows what the empty list becomes. -/
theorem shows_run (acts : List (Act α)) : Shows (run n acts) (Listing.run n acts) :=
  (Shows.empty n).after acts

/-! ### The mark -/

/-- Only a mark brings the mark forward. -/
theorem Shows.processed_act_le {b : Batch α n} {l : Listing α} (h : Shows b l) {a : Act α}
    (ha : ∀ more, a ≠ .mark more) : (b.act a).1.processed ≤ b.processed := by
  rw [(h.act a).1.processed, h.processed]
  cases a with
  | push a =>
      rw [Listing.act]
      split <;> exact Nat.le_refl _
  | claim written? =>
      simp only [Listing.act]
      split
      · cases written? <;> exact Nat.le_refl _
      · exact Nat.le_refl _
  | dropBack  => exact l.dropLast_eq.2.2 ▸ Nat.min_le_left _ _
  | clear     => exact Nat.zero_le _
  | mark more => exact absurd rfl (ha more)

/-- A mark reaches no further than the records that are there. -/
theorem Shows.processed_act_le_size {b : Batch α n} {l : Listing α} (h : Shows b l) (a : Act α) :
    (b.act a).1.processed ≤ b.size := by
  by_cases ha : ∃ more, a = .mark more
  · obtain ⟨more, rfl⟩ := ha
    exact Nat.min_le_right _ _
  · exact Nat.le_trans (h.processed_act_le fun more e => ha ⟨more, e⟩) b.processed_le

/-- As long as nothing is marked, the mark does not come forward. -/
theorem Shows.processed_after_le {b : Batch α n} {l : Listing α} (h : Shows b l)
    {acts : List (Act α)} (hacts : ∀ more, Act.mark more ∉ acts) :
    (b.after acts).processed ≤ b.processed := by
  induction acts generalizing b l with
  | nil            => exact Nat.le_refl _
  | cons a acts ih =>
      refine Nat.le_trans (ih (h.act a).1 fun more hmem => hacts more ?_) (h.processed_act_le ?_)
      · exact List.mem_cons_of_mem a hmem
      · exact fun more e => hacts more (e ▸ List.mem_cons_self)

/-- **A batch is a list with a mark**, whatever is done with it.  The list is bounded; its records
are those that were appended and not dropped since, and a claimed slot that was left as it is shows
what was last stored at its place.  The unprocessed records are those behind the mark.  A record is
handed back just when the list is as long as it may be, and then nothing changes.  From its pool a
batch comes back cleared.  A record that is appended stands at place `b.size`, and is not among the
processed ones until something is marked thereafter. -/
theorem keeps_marked_list (n : Nat) (acts : List (Act α)) :
    let b : Batch α n := run n acts
    let l : Listing α := .run n acts
    (b.processed ≤ b.size ∧ b.items.length = b.size ∧ b.size ≤ n) ∧
      (b.items = l.items ∧ ∀ place < b.size, b.items[place]? = some (l.lastAt place)) ∧
      (b.unprocessed = b.items.drop b.processed ∧ b.unprocessed = l.due) ∧
      (∀ a, (b.act a).2 = (l.act n a).2) ∧
      (∀ a, b.act (.push a) = (b, .refused a) ↔ b.size = n) ∧
      (∀ (p : Pool α n) (serial : Nat),
        (p.release ⟨serial, b⟩).acquire = .ok (⟨serial, (b.act .clear).1⟩, p)) ∧
      ∀ a later, (∀ more, Act.mark more ∉ later) → (b.after (a :: later)).processed ≤ b.size := by
  intro b l
  have h : Shows b l := shows_run acts
  refine ⟨⟨b.processed_le, b.length_items, b.size_le⟩, ⟨h.items, fun place hplace => ?_⟩,
    ⟨rfl, h.unprocessed_eq⟩, fun a => (h.act a).2, fun a => ⟨fun hrefused => ?_, fun hfull => ?_⟩,
    fun p serial => rfl, fun a later hlater => ?_⟩
  · rw [← h.storage place (Nat.lt_of_lt_of_le hplace b.size_le), storage,
      List.getElem?_append_left (b.length_items ▸ hplace)]
  · -- with room for it the record would have been stored
    refine Nat.le_antisymm b.size_le (Nat.le_of_not_lt fun hroom => ?_)
    obtain ⟨shown, claimed, hclaim, -⟩ := claim?_of_lt hroom
    rw [act, push?, hclaim] at hrefused
    cases congrArg Prod.snd hrefused
  · rw [act, push?, claim?_of_not_lt (Nat.not_lt_of_le (Nat.le_of_eq hfull.symm))]
    rfl
  · exact Nat.le_trans ((h.act a).1.processed_after_le hlater) (h.processed_act_le_size a)

/-- A slot that is claimed again shows what it held, and is not processed although it once was. -/
theorem keeps_marked_list_reused :
    let b : Batch Nat 2 := run 2 [.push 1, .push 2, .mark 9, .dropBack]
    b.size = 1 ∧ (∀ more, Act.mark more ∉ [Act.push 3]) ∧
      (b.after [.claim none, .push 3]).items = [1, 2] ∧
      (b.after [.claim none, .push 3]).processed ≤ 1 := by
  intro b
  obtain ⟨-, -, -, -, -, -, hlater⟩ :=
    keeps_marked_list 2 [.push 1, .push 2, .mark 9, .dropBack]
  have hno : ∀ more, Act.mark more ∉ [Act.push 3] := by simp
  exact ⟨by decide, hno, by decide, hlater (.claim none) [.push 3] hno⟩

end Ais.Batch
