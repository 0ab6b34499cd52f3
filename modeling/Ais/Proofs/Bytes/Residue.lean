import Ais.Bytes.FixedText

/-!
# Bytes — what earlier texts leave behind

Fixed texts are compared by their storage, and the storage of a text that has been edited tells of
the texts that stood there before.  Whatever the edit, it writes from the start of the storage as
far as the text then goes, and leaves what lies behind (`Over`).  So place `i` has the byte of the
newest text that went so far (`lastAt`, `left_run`), and two edited texts are equal when their bytes
are and the same was left behind them (`Left.eq_iff`).  That the bytes are the same is enough where
no longer text has stood in either (`run_eq_iff_of_longest`).
-/

namespace Ais.FixedText

variable {n : Nat}

/-! ### Storage -/

/-- The whole storage, the text at its start. -/
def storage (t : FixedText n) : List UInt8 := t.bytes ++ t.residue

@[simp] theorem length_storage (t : FixedText n) : t.storage.length = n := by
  rw [storage, List.length_append, t.size_eq]

/-- Texts are equal when they show the same and have the same storage. -/
theorem eq_iff_storage {t u : FixedText n} :
    t = u ↔ t.bytes = u.bytes ∧ t.storage = u.storage := by
  refine ⟨fun h => h ▸ ⟨rfl, rfl⟩, fun ⟨hbytes, hstorage⟩ => ?_⟩
  cases t
  cases u
  subst hbytes
  cases List.append_cancel_left hstorage
  rfl

/-- The text of `u` was written over the storage of `t`, from its start. -/
def Over (t u : FixedText n) : Prop := u.storage = u.bytes ++ t.storage.drop u.bytes.length

/-- A text is written over itself. -/
theorem Over.refl (t : FixedText n) : t.Over t := by
  rw [Over, storage, List.drop_left]

theorem over_clear (t : FixedText n) : t.Over t.clear := rfl

/-- An append writes over what was written over, if it is done. -/
theorem Over.append {t u v : FixedText n} {more : List UInt8} (h : t.Over u)
    (hv : u.append more = .ok v) : t.Over v := by
  unfold FixedText.append at hv
  split at hv
  case isTrue hroom =>
    have hresidue : u.residue = t.storage.drop u.bytes.length := List.append_cancel_left h
    cases hv
    show (u.bytes ++ more) ++ u.residue.drop more.length =
      (u.bytes ++ more) ++ t.storage.drop (u.bytes ++ more).length
    rw [hresidue, List.drop_drop, List.length_append]
  case isFalse => cases hv

/-- A text that is assigned is written over the old one, done or refused. -/
theorem over_assign (t : FixedText n) (bytes : List UInt8) : t.Over (t.assign bytes).1 := by
  rw [assign]
  cases h : t.clear.append bytes with
  | ok u    => exact t.over_clear.append h
  | error _ => exact t.over_clear

/-! ### Edits -/

/-- What can be done with a fixed text.  A single byte is appended as a text of one. -/
inductive Edit
  | ofBytes (bytes : List UInt8)
  | append (more : List UInt8)
  | assign (bytes : List UInt8)
  | clear

/-- The text after an edit.  A text that is not made, or not appended, leaves the old one. -/
def edit (t : FixedText n) : Edit → FixedText n
  | .ofBytes bytes => (ofBytes n bytes).toOption.getD t
  | .append more   => (t.append more).toOption.getD t
  | .assign bytes  => (t.assign bytes).1
  | .clear         => t.clear

/-- The text that the edits make of none, the first of them first. -/
def run (n : Nat) (es : List Edit) : FixedText n := es.foldl edit (empty n)

/-- The texts that stood in the storage since it was zero, the newest first, after an edit. -/
def keep (t : FixedText n) (texts : List (List UInt8)) : Edit → List (List UInt8)
  | .ofBytes bytes => if bytes.length ≤ n then [bytes] else texts
  | e              => (t.edit e).bytes :: texts

/-- The texts that stood in the storage after many edits. -/
def keepAll (t : FixedText n) (texts : List (List UInt8)) : List Edit → List (List UInt8)
  | []      => texts
  | e :: es => (t.edit e).keepAll (t.keep texts e) es

/-- The texts that stood in the storage of `run n es`, the newest first. -/
def texts (n : Nat) (es : List Edit) : List (List UInt8) := (empty n).keepAll [] es

/-- The byte at `i` of the newest text that goes so far, and zero if none does. -/
def lastAt (texts : List (List UInt8)) (i : Nat) : UInt8 := (texts.findSome? (·[i]?)).getD 0

/-- At a place that the last text reached stands its byte. -/
theorem lastAt_cons_of_lt (text : List UInt8) (texts : List (List UInt8)) {i : Nat}
    (h : i < text.length) : lastAt (text :: texts) i = text[i] := by
  simp [lastAt, h]

/-- At any other stands what stood there before. -/
theorem lastAt_cons_of_le (text : List UInt8) (texts : List (List UInt8)) {i : Nat}
    (h : text.length ≤ i) : lastAt (text :: texts) i = lastAt texts i := by
  simp [lastAt, h]

/-- Where no text reached there is nothing yet. -/
theorem lastAt_eq_zero {texts : List (List UInt8)} {i : Nat} (h : ∀ text ∈ texts, text.length ≤ i) :
    lastAt texts i = 0 := by
  induction texts with
  | nil => rfl
  | cons text texts ih =>
      rw [lastAt_cons_of_le text texts (h text List.mem_cons_self)]
      exact ih fun text' h' => h text' (List.mem_cons_of_mem text h')

/-! ### What the storage tells -/

/-- The storage is what the texts have left in it. -/
def Left (t : FixedText n) (texts : List (List UInt8)) : Prop :=
  ∀ i < n, t.storage[i]? = some (lastAt texts i)

/-- Nothing has been left in new storage. -/
theorem left_empty (n : Nat) : (empty n).Left [] := fun i hi => by
  simp [storage, empty, lastAt, hi]

/-- What is written over storage is left in it. -/
theorem Left.over {t u : FixedText n} {texts : List (List UInt8)} (h : t.Left texts)
    (hu : t.Over u) : u.Left (u.bytes :: texts) := fun i hi => by
  rw [show u.storage = _ from hu]
  by_cases hlt : i < u.bytes.length
  · rw [List.getElem?_append_left hlt, lastAt_cons_of_lt _ _ hlt, List.getElem?_eq_getElem hlt]
  · have hle : u.bytes.length ≤ i := Nat.le_of_not_lt hlt
    rw [List.getElem?_append_right hle, List.getElem?_drop, Nat.add_sub_cancel' hle, h i hi,
      lastAt_cons_of_le _ _ hle]

/-- **Texts with a history are equal when their bytes are, and what lies behind is what the same
texts left.** -/
theorem Left.eq_iff {t u : FixedText n} {texts texts' : List (List UInt8)} (ht : t.Left texts)
    (hu : u.Left texts') :
    t = u ↔ t.bytes = u.bytes ∧ ∀ i, t.size ≤ i → i < n → lastAt texts i = lastAt texts' i := by
  constructor
  · rintro rfl
    exact ⟨rfl, fun i _ hi => Option.some.inj ((ht i hi).symm.trans (hu i hi))⟩
  · rintro ⟨hbytes, hbehind⟩
    refine eq_iff_storage.mpr ⟨hbytes, List.ext_getElem? fun i => ?_⟩
    by_cases hi : i < n
    · by_cases hlt : i < t.bytes.length
      · rw [storage, storage, List.getElem?_append_left hlt, ← hbytes,
          List.getElem?_append_left hlt]
      · rw [ht i hi, hu i hi, hbehind i (Nat.le_of_not_lt hlt) hi]
    · rw [List.getElem?_eq_none (by simpa using hi), List.getElem?_eq_none (by simpa using hi)]

/-! ### Histories -/

/-- An append writes over the old text, done or refused. -/
theorem over_append (t : FixedText n) (more : List UInt8) :
    t.Over ((t.append more).toOption.getD t) := by
  cases h : t.append more with
  | ok u    => exact (Over.refl t).append h
  | error f => exact Over.refl t

/-- An edit leaves what it wrote. -/
theorem Left.edit {t : FixedText n} {texts : List (List UInt8)} (h : t.Left texts) (e : Edit) :
    (t.edit e).Left (t.keep texts e) := by
  cases e with
  | ofBytes bytes =>
      by_cases hroom : bytes.length ≤ n
      · obtain ⟨u, hu, hbytes⟩ := (empty n).append_ok bytes (by simpa using hroom)
        have hover : (empty n).Over u := (Over.refl _).append hu
        have hleft := (left_empty n).over hover
        rw [hbytes, bytes_empty, List.nil_append] at hleft
        rw [keep, if_pos hroom, FixedText.edit, ofBytes, hu]
        exact hleft
      · rw [keep, if_neg hroom, FixedText.edit, ofBytes, FixedText.append,
          dif_neg (by simpa [empty] using hroom)]
        exact h
  | append more  => exact h.over (t.over_append more)
  | assign bytes => exact h.over (t.over_assign bytes)
  | clear        => exact h.over t.over_clear

theorem Left.edits {t : FixedText n} {texts : List (List UInt8)} (h : t.Left texts)
    (es : List Edit) : (es.foldl FixedText.edit t).Left (t.keepAll texts es) := by
  induction es generalizing t texts with
  | nil          => exact h
  | cons e es ih => exact ih (h.edit e)

/-- **The storage of a text tells its history**: at each place stands what was last left there. -/
theorem left_run (n : Nat) (es : List Edit) : (run n es).Left (texts n es) :=
  (left_empty n).edits es

/-- **Edited texts are equal when their bytes are, if no longer text has stood in their storage.**
-/
theorem run_eq_iff_of_longest {es es' : List Edit}
    (h : ∀ text ∈ texts n es, text.length ≤ (run n es).size)
    (h' : ∀ text ∈ texts n es', text.length ≤ (run n es').size) :
    run n es = run n es' ↔ (run n es).bytes = (run n es').bytes := by
  rw [(left_run n es).eq_iff (left_run n es')]
  refine and_iff_left_of_imp fun hbytes i hi _ => ?_
  have hsize : (run n es').size ≤ i := by rwa [size, ← hbytes]
  rw [lastAt_eq_zero fun text ht => Nat.le_trans (h text ht) hi,
    lastAt_eq_zero fun text ht => Nat.le_trans (h' text ht) hsize]

end Ais.FixedText
