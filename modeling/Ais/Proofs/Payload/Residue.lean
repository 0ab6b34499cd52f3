import Ais.Proofs.Bytes.Residue
import Ais.Proofs.Payload.Shown

/-!
# Payloads — what earlier payloads leave behind

A payload is filled over the one before it: the packer clears the storage and appends, and text that
is refused only clears, so the storage is always written over from its start (`over_edit`).
Payloads are compared with their storage.  What was said of fixed texts therefore holds of them: two
payloads with a history are equal when they show the same and the same was left behind their bytes
(`run_eq_iff`).  So of neither record what shows decides alone
(`FixedText.eq_iff_shown_iff_leftovers`, `FixedText.cleared_ne_empty`).
-/

namespace Ais

open FixedText

namespace Packer

variable {n : Nat} {t : FixedText n} {p q : Packer n}

theorem over_write {bytes : List UInt8} {out : FixedText n} (h : t.Over p.out)
    (hout : p.write bytes = .ok out) : t.Over out := by
  unfold write at hout
  split at hout
  case h_1 happend =>
    cases hout
    exact h.append happend
  case h_2 => cases hout

theorem over_push {value : UInt64} {width : Nat} (h : t.Over p.out)
    (hq : p.push value width = .ok q) : t.Over q.out := by
  simp only [push] at hq
  split at hq
  case isTrue =>
    cases hq
    exact h
  case isFalse =>
    split at hq
    case h_1 => cases hq
    case h_2 hwrite =>
      cases hq
      exact over_write h hwrite

theorem over_singles {cs : List UInt8} (h : t.Over p.out) (hq : p.singles cs = .ok q) :
    t.Over q.out := by
  induction cs generalizing p with
  | nil =>
      cases hq
      exact h
  | cons c cs ih =>
      simp only [singles] at hq
      split at hq
      case h_1 => cases hq
      case h_2 hpush => exact ih (over_push h hpush) hq

theorem over_armoured {cs : List UInt8} (h : t.Over p.out) (hq : p.armoured cs = .ok q) :
    t.Over q.out := by
  fun_induction armoured p cs with
  | case1 => cases hq
  | case2 p a b c d rest r hpush ih => exact ih (over_push h hpush) hq
  | case3 p rest => exact over_singles h hq

end Packer

namespace Payload

/-- What can be done with a payload: it is filled from armoured text or from a message, or its
channel is set. -/
inductive Edit
  | dearmour (text : List UInt8) (fill : UInt8)
  | ofMessage (m : Message)
  | setChannel (channel : Option UInt8)

/-- The payload after an edit. -/
def edit (p : Payload) : Edit → Payload
  | .dearmour text fill => (p.dearmour text fill).1
  | .ofMessage m        => (p.ofMessage m).1
  | .setChannel channel => { p with channel }

/-- The payload that the edits make of none, the first of them first. -/
def run (es : List Edit) : Payload := es.foldl edit empty

/-- The bytes that stood in the storage after many edits, the newest first. -/
def keepAll (p : Payload) (texts : List (List UInt8)) : List Edit → List (List UInt8)
  | []      => texts
  | e :: es => (p.edit e).keepAll ((p.edit e).bytes :: texts) es

/-- The bytes that stood in the storage of `run es`, the newest first. -/
def texts (es : List Edit) : List (List UInt8) := empty.keepAll [] es

theorem over_dearmour (p : Payload) (text : List UInt8) (fill : UInt8) :
    p.packed.Over (p.dearmour text fill).1.packed := by
  rcases p.dearmour_cases text fill with ⟨e, he⟩ | ⟨q, packed, hq, hpacked, hdone⟩
  · rw [he]
    exact p.packed.over_clear
  · rw [hdone]
    exact Packer.over_write (Packer.over_armoured p.packed.over_clear hq) hpacked

theorem over_edit (p : Payload) (e : Edit) : p.packed.Over (p.edit e).packed := by
  cases e with
  | dearmour text fill => exact p.over_dearmour text fill
  | ofMessage m        => exact p.over_dearmour m.payload.bytes m.fill
  | setChannel channel => exact Over.refl p.packed

theorem left_edits {p : Payload} {texts : List (List UInt8)} (h : p.packed.Left texts)
    (es : List Edit) : (es.foldl edit p).packed.Left (p.keepAll texts es) := by
  induction es generalizing p texts with
  | nil          => exact h
  | cons e es ih => exact ih (h.over (p.over_edit e))

theorem left_run (es : List Edit) : (run es).packed.Left (texts es) :=
  left_edits (left_empty _) es

/-- Payloads are equal when they show the same and have the same storage. -/
theorem eq_iff_packed {p q : Payload} : p = q ↔ p.shown = q.shown ∧ p.packed = q.packed := by
  refine ⟨fun h => h ▸ ⟨rfl, rfl⟩, fun ⟨hshown, hpacked⟩ => ?_⟩
  cases p
  cases q
  obtain ⟨-, hbits, hchannel⟩ := by simpa only [shown, Prod.mk.injEq] using hshown
  subst hbits hchannel
  cases hpacked
  rfl

/-- **Filled payloads are equal when they show the same, and what lies behind their bytes is what
the same payloads left.** -/
theorem run_eq_iff (es es' : List Edit) :
    run es = run es' ↔ (run es).shown = (run es').shown ∧
      ∀ i, (run es).bytes.length ≤ i → i < Limits.payloadBytes →
        lastAt (texts es) i = lastAt (texts es') i := by
  rw [eq_iff_packed, (left_run es).eq_iff (left_run es')]
  refine and_congr_right fun hshown => and_iff_right ?_
  exact congrArg Prod.fst hshown

end Payload

/-! ### Both records -/

/-- **When equality is equality of what shows.**  Of two fixed texts that were made of none by edits
it is, if and only if their bytes differ or the newest texts that went further left the same behind
them; and so of two payloads, by what shows of them. -/
theorem FixedText.eq_iff_shown_iff_leftovers (n : Nat) (es es' : List FixedText.Edit)
    (ps ps' : List Payload.Edit) :
    ((FixedText.run n es = FixedText.run n es' ↔
        (FixedText.run n es).bytes = (FixedText.run n es').bytes) ↔
      ((FixedText.run n es).bytes = (FixedText.run n es').bytes →
        ∀ i, (FixedText.run n es).size ≤ i → i < n →
          lastAt (FixedText.texts n es) i = lastAt (FixedText.texts n es') i)) ∧
    ((Payload.run ps = Payload.run ps' ↔ (Payload.run ps).shown = (Payload.run ps').shown) ↔
      ((Payload.run ps).shown = (Payload.run ps').shown →
        ∀ i, (Payload.run ps).bytes.length ≤ i → i < Limits.payloadBytes →
          lastAt (Payload.texts ps) i = lastAt (Payload.texts ps') i)) := by
  rw [(FixedText.left_run n es).eq_iff (FixedText.left_run n es'), Payload.run_eq_iff]
  exact ⟨and_iff_left_iff_imp, and_iff_left_iff_imp⟩

/-- A text that was cleared is not the text that never was, and a payload that was filled and then
refused is not the payload that never was, although both show nothing. -/
theorem FixedText.cleared_ne_empty :
    (∃ es es' : List FixedText.Edit,
      (FixedText.run 4 es).bytes = (FixedText.run 4 es').bytes ∧
        FixedText.run 4 es ≠ FixedText.run 4 es') ∧
    (∃ es es' : List Payload.Edit,
      (Payload.run es).shown = (Payload.run es').shown ∧ Payload.run es ≠ Payload.run es') :=
  ⟨⟨[.assign [97, 98], .clear], [], by decide, by decide⟩,
    ⟨[.dearmour [119] 0, .dearmour [] 0], [], by decide +kernel, by decide +kernel⟩⟩

end Ais
