import Ais.Fault

/-!
# Bytes — texts of fixed room

A `FixedText n` is a text of at most `n` bytes that lives in `n` bytes of storage and is filled
again and again.  Behind its `bytes` lies the `residue`, what earlier and longer texts left in the
storage.  An append overwrites the front of the residue, or is refused whole; clearing moves the
text into the residue.  Two fixed texts are equal when their storage is, residue included.
-/

namespace Ais

structure FixedText (n : Nat) where
  bytes   : List UInt8
  residue : List UInt8
  size_eq : bytes.length + residue.length = n
deriving DecidableEq

namespace FixedText

variable {n : Nat}

/-- No text, in storage that is all zero. -/
def empty (n : Nat) : FixedText n := ⟨[], List.replicate n 0, by simp⟩

def size (t : FixedText n) : Nat := t.bytes.length

def isEmpty (t : FixedText n) : Bool := t.bytes.isEmpty

/-- The bytes that may still be appended. -/
def remaining (t : FixedText n) : Nat := n - t.size

/-- Forgets the text; the storage keeps it. -/
def clear (t : FixedText n) : FixedText n :=
  ⟨[], t.bytes ++ t.residue, by simpa using t.size_eq⟩

/-- The text with `more` after it, if there is room. -/
def append (t : FixedText n) (more : List UInt8) : Except Fault (FixedText n) :=
  if h : more.length ≤ t.residue.length then
    .ok ⟨t.bytes ++ more, t.residue.drop more.length, by
      have := t.size_eq
      simp only [List.length_append, List.length_drop]
      omega⟩
  else .error (.length (.noRoom more.length t.remaining))

/-- `bytes` in storage that was zero. -/
def ofBytes (n : Nat) (bytes : List UInt8) : Except Fault (FixedText n) := (empty n).append bytes

/-- `bytes` in place of the text.  Where they do not fit, the text is cleared. -/
def assign (t : FixedText n) (bytes : List UInt8) : FixedText n × Except Fault Unit :=
  match t.clear.append bytes with
  | .ok t'   => (t', .ok ())
  | .error f => (t.clear, .error f)

/-- The text, read with replacement. -/
def text (t : FixedText n) : String := Text.lossy t.bytes

/-- The text in quotes. -/
def inspect (t : FixedText n) : String := Text.quotedBytes t.bytes

@[simp] theorem bytes_empty : (empty n).bytes = [] := rfl

@[simp] theorem bytes_clear (t : FixedText n) : t.clear.bytes = [] := rfl

theorem size_le (t : FixedText n) : t.bytes.length ≤ n := by
  have := t.size_eq
  omega

/-- Bytes that there is room for are appended. -/
theorem append_ok (t : FixedText n) (more : List UInt8) (h : t.bytes.length + more.length ≤ n) :
    ∃ t', t.append more = .ok t' ∧ t'.bytes = t.bytes ++ more := by
  have := t.size_eq
  unfold append
  rw [dif_pos (by omega)]
  exact ⟨_, rfl, rfl⟩

/-- Bytes that there is room for are put in place of the text. -/
theorem assign_ok (t : FixedText n) (bytes : List UInt8) (h : bytes.length ≤ n) :
    ∃ t', t.assign bytes = (t', .ok ()) ∧ t'.bytes = bytes := by
  have room : t.clear.bytes.length + bytes.length ≤ n := by simpa using h
  obtain ⟨t', ht', hbytes⟩ := t.clear.append_ok bytes room
  refine ⟨t', ?_, by simpa using hbytes⟩
  rw [assign, ht']

end FixedText

end Ais
