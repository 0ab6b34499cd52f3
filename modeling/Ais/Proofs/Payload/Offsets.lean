import Ais.Proofs.Payload.Confined
import Ais.Proofs.Payload.Text

/-!
# Payloads — every act keeps the place

A reader that has failed goes on, so what is read next must not depend on how the last read ended.
Where an act leaves a reader, and how it fails, is a function of the offset, the width and the number
of valid bits alone (`Act.move`, `Act.fault?`).  A read that succeeds works within its bounds: the
same read with every shift, difference and index checked (`Act.checked?`) does not give up and finds
the same.

* `Act.run_eq`: what one act finds, and where it leaves the reader.
* `after_eq`: so where a whole sequence leaves it.
* `Act.checked?_eq`: checked reads find what the reads find.
* `acts_keep_place`: all of it, after any sequence of acts.
-/

namespace Ais

open Bits

namespace Reader

/-! ### Places and faults -/

/-- Where the act leaves a reader that stands at `offset`. -/
def Act.move (offset : Nat) : Act → Nat
  | .unsigned width | .signed width | .text width | .skip width =>
    min (offset + width) Limits.word
  | .bool        => min (offset + 1) Limits.word
  | .seek target => target

/-- The fault of a field that reaches past the valid bits. -/
def overrun? (bits offset width : Nat) : Option Fault :=
  if bits < offset + width then some (.outOfBounds offset width bits) else none

/-- How the act fails at `offset`, if it does, where there are `bits` valid bits. -/
def Act.fault? (bits offset : Nat) : Act → Option Fault
  | .unsigned width | .signed width =>
    if width = 0 ∨ widest < width then some (.length (.width width widest))
    else overrun? bits offset width
  | .bool            => overrun? bits offset 1
  | .text width      => overrun? bits offset width
  | .seek _ | .skip _ => none

/-- What the act finds, by the bits of its field. -/
def Act.answer (r : Reader) : Act → Except Fault Found
  | .unsigned width   => r.answerNumber width fun bits => .unsigned (UInt32.ofNat (value bits))
  | .signed width     => r.answerNumber width fun bits =>
    .signed (Int32.ofBitVec ((BitVec.ofNat width (value bits)).signExtend 32))
  | .bool             => r.answerNumber 1 fun bits => .bool (UInt32.ofNat (value bits) != 0)
  | .text width       => r.answer width fun bits =>
    .text (String.ofList (SixBit.trimmed (Bits.letters bits)))
  | .seek _ | .skip _ => .ok .nothing

variable {α β : Type} {r : Reader}

/-- A read whose finding is only given a name. -/
theorem run_map {m : Read α} (f : α → β) {x : Except Fault α} {s : Reader} (h : m.run r = (x, s)) :
    (m >>= fun a => pure (f a) : Read β).run r = (x.map f, s) := by
  rw [run_bind, h]
  cases x <;> rfl

theorem map_answer (r : Reader) (width : Nat) (g : List Bool → α) (f : α → β) :
    (r.answer width g).map f = r.answer width fun bits => f (g bits) := by
  rw [answer, answer]
  split <;> rfl

theorem map_answerNumber (r : Reader) (width : Nat) (g : List Bool → α) (f : α → β) :
    (r.answerNumber width g).map f = r.answerNumber width fun bits => f (g bits) := by
  rw [answerNumber, answerNumber, ← r.map_answer width g f]
  split <;> rfl

/-- **What an act finds and where it leaves the reader**: the same place, whether it fails or not. -/
theorem Act.run_eq (a : Act) (r : Reader) :
    a.read.run r = (a.answer r, { r with offset := a.move r.offset }) := by
  cases a with
  | unsigned width =>
      exact (run_map Found.unsigned (r.unsigned_run width)).trans
        (congrArg (·, _) (map_answerNumber ..))
  | signed width =>
      exact (run_map Found.signed (r.signed_run width)).trans
        (congrArg (·, _) (map_answerNumber ..))
  | bool =>
      exact (run_map Found.bool r.bool_run).trans (congrArg (·, _) (map_answerNumber ..))
  | text width =>
      exact (run_map Found.text (r.text_run width)).trans
        (congrArg (·, _) (map_answer ..))
  | seek target => rfl
  | skip width  => rfl

theorem answer_eq_error_iff {width : Nat} {g : List Bool → α} {e : Fault} :
    r.answer width g = .error e ↔ overrun? r.bits r.offset width = some e := by
  by_cases hroom : r.offset + width ≤ r.bits
  · rw [answer, overrun?, if_pos hroom, if_neg (Nat.not_lt.mpr hroom)]
    simp only [reduceCtorEq]
  · rw [answer, overrun?, if_neg hroom, if_pos (Nat.lt_of_not_le hroom), Except.error.injEq,
      Option.some.injEq]

theorem answerNumber_eq_error_iff {width : Nat} {g : List Bool → α} {e : Fault} :
    r.answerNumber width g = .error e ↔
      (if width = 0 ∨ widest < width then some (.length (.width width widest))
        else overrun? r.bits r.offset width) = some e := by
  by_cases hwide : width = 0 ∨ widest < width
  · rw [answerNumber, if_pos hwide, if_pos hwide, Except.error.injEq, Option.some.injEq]
  · rw [answerNumber, if_neg hwide, if_neg hwide]
    exact answer_eq_error_iff

/-- An act fails as the offset, the width and the number of valid bits say. -/
theorem Act.answer_eq_error_iff (a : Act) {e : Fault} :
    a.answer r = .error e ↔ a.fault? r.bits r.offset = some e := by
  cases a with
  | unsigned width => exact answerNumber_eq_error_iff
  | signed width   => exact answerNumber_eq_error_iff
  | bool           => exact answerNumber_eq_error_iff
  | text width     =>
      rw [Act.answer]
      exact Reader.answer_eq_error_iff
  | seek target    => simp only [Act.answer, Act.fault?, reduceCtorEq]
  | skip width     => simp only [Act.answer, Act.fault?, reduceCtorEq]

/-- The reader after the acts, whatever became of each. -/
def after (r : Reader) (as : List Act) : Reader := as.foldl (fun r a => (a.read.run r).2) r

/-- **After any acts** only the place has changed, and it is where their widths say. -/
theorem after_eq (r : Reader) (as : List Act) :
    r.after as = { r with offset := as.foldl (fun offset a => a.move offset) r.offset } := by
  induction as generalizing r with
  | nil => rfl
  | cons a as ih =>
      rw [after, List.foldl_cons, a.run_eq]
      exact ih _

/-! ### Checked reads -/

/-- A difference, if it is not negative. -/
def minus? (m n : Nat) : Option Nat := if n ≤ m then some (m - n) else none

/-- A shift by fewer places than the word has. -/
def shiftLeft? (w : UInt64) (k : Nat) : Option UInt64 :=
  if k < 64 then some (w <<< UInt64.ofNat k) else none

def shiftRight? (w : UInt64) (k : Nat) : Option UInt64 :=
  if k < 64 then some (w >>> UInt64.ofNat k) else none

def shiftSigned? (w : UInt64) (k : Nat) : Option Int64 :=
  if k < 64 then some (w.toInt64 >>> Int64.ofNat k) else none

/-- The bytes side by side in a word, the first of them being byte `i` of a window. -/
def gather? (i : Nat) : List UInt8 → Option UInt64
  | []      => some 0
  | b :: bs => do
    let place ← minus? 40 (8 * i)
    let high ← shiftLeft? b.toUInt64 place
    let low ← gather? (i + 1) bs
    return high ||| low

/-- As `window`, for a field that lies among the valid bits. -/
def window? (r : Reader) (start width : Nat) : Option UInt64 :=
  if start + width ≤ r.bits then do
    let word ← gather? 0 ((r.bytes.drop (start / 8)).take (if 9 < width then 6 else 2))
    shiftLeft? word (16 + start % 8)
  else none

/-- As `letters`, each letter being looked up in the alphabet. -/
def letters? (r : Reader) (start : Nat) : Nat → Option (List Char)
  | 0     => some []
  | n + 1 => do
    let code ← shiftRight? (← r.window? start 6) 58
    if code = 0 then return []
    else
      let letter ← SixBit.characters[code.toNat]?
      let letters ← r.letters? (start + 6) n
      return letter :: letters

/-- What the act finds if every shift, difference and index on the way is in range. -/
def Act.checked? (r : Reader) : Act → Option Found
  | .unsigned width => do
    let place ← minus? 64 width
    let number ← shiftRight? (← r.window? r.offset width) place
    return .unsigned number.toUInt32
  | .signed width => do
    let place ← minus? 64 width
    let number ← shiftSigned? (← r.window? r.offset width) place
    return .signed number.toInt32
  | .bool => do
    let place ← minus? 64 1
    let number ← shiftRight? (← r.window? r.offset 1) place
    return .bool (number.toUInt32 != 0)
  | .text width => do
    let letters ← r.letters? r.offset (width / 6)
    return .text (String.ofList (SixBit.trimmed letters))
  | .seek _ | .skip _ => some .nothing

theorem gather?_eq {bytes : List UInt8} {i : Nat} (h : i + bytes.length ≤ 6) :
    gather? i bytes = some (gather (5 - i) bytes) := by
  induction bytes generalizing i with
  | nil => rfl
  | cons b bytes ih =>
      rw [List.length_cons] at h
      have hplace : 40 - 8 * i = 8 * (5 - i) := by omega
      have hnext : 5 - i - 1 = 5 - (i + 1) := by omega
      have hshift : shiftLeft? b.toUInt64 (8 * (5 - i)) =
          some (b.toUInt64 <<< UInt64.ofNat (8 * (5 - i))) := if_pos (by omega)
      rw [gather?, minus?, if_pos (by omega), ih (by omega), gather, hplace, hnext]
      simp only [Option.bind_eq_bind, Option.bind_some, hshift]
      rfl

variable {start width : Nat}

theorem window?_eq (h : start + width ≤ r.bits) :
    r.window? start width = some (r.window start width) := by
  have hspan : ((r.bytes.drop (start / 8)).take (if 9 < width then 6 else 2)).length ≤ 6 := by
    rw [List.length_take]
    split <;> omega
  rw [window?, if_pos h, gather?_eq (by omega), window]
  exact if_pos (by omega)

/-- A code is looked up within the alphabet. -/
theorem letters?_eq {n : Nat} (h : start + 6 * n ≤ r.bits) :
    r.letters? start n = some (r.letters start n) := by
  induction n generalizing start with
  | zero => rfl
  | succ n ih =>
      have hvalue : (r.window start 6 >>> UInt64.ofNat (64 - 6)).toNat = value (r.field start 6) :=
        r.value_field start (by decide) (by decide)
      have hlt := value_lt (r.field start 6)
      rw [length_field, ← hvalue] at hlt
      have hshift : shiftRight? (r.window start 6) 58 =
          some (r.window start 6 >>> UInt64.ofNat (64 - 6)) := rfl
      have hcode : (r.window start 6 >>> 58).toUInt8 =
          UInt8.ofNat (r.window start 6 >>> UInt64.ofNat (64 - 6)).toNat := rfl
      rw [letters?, letters, window?_eq (by omega), hcode, ih (by omega)]
      simp only [Option.bind_eq_bind, Option.bind_some, hshift]
      -- of the window only that its code is below 64 is needed from here on
      generalize r.window start 6 >>> UInt64.ofNat (64 - 6) = code at hlt ⊢
      have hzero : UInt8.ofNat code.toNat = 0 ↔ code = 0 := by
        rw [← UInt8.toNat_inj, ← UInt64.toNat_inj, UInt8.toNat_ofNat', Nat.mod_eq_of_lt (by omega)]
        rfl
      by_cases h0 : code = 0
      · rw [if_pos h0, if_pos (hzero.mpr h0)]
        rfl
      · rw [if_neg h0, if_neg (mt hzero.mp h0), SixBit.letter_eq_getElem ⟨code.toNat, hlt⟩,
          List.getElem?_eq_getElem hlt]
        rfl

/-- **Reads work within their bounds**: what succeeds finds the same with everything checked. -/
theorem Act.checked?_eq (a : Act) {found : Found} (h : a.answer r = .ok found) :
    a.checked? r = some found := by
  have hwidest : widest = 32 := rfl
  cases a with
  | unsigned width =>
      obtain ⟨hpos, hwidth, hroom, rfl⟩ := answerNumber_eq_ok h
      have hshift : shiftRight? (r.window r.offset width) (64 - width) =
          some (r.window r.offset width >>> UInt64.ofNat (64 - width)) := if_pos (by omega)
      rw [← r.unsigned_window r.offset hpos hwidth, checked?, minus?, if_pos (by omega),
        window?_eq hroom]
      simp only [Option.bind_eq_bind, Option.bind_some, hshift]
      rfl
  | signed width =>
      obtain ⟨hpos, hwidth, hroom, rfl⟩ := answerNumber_eq_ok h
      have hshift : shiftSigned? (r.window r.offset width) (64 - width) =
          some ((r.window r.offset width).toInt64 >>> Int64.ofNat (64 - width)) :=
        if_pos (by omega)
      rw [← r.signed_window r.offset hpos hwidth, checked?, minus?, if_pos (by omega),
        window?_eq hroom]
      simp only [Option.bind_eq_bind, Option.bind_some, hshift]
      rfl
  | bool =>
      obtain ⟨hpos, hwidth, hroom, rfl⟩ := answerNumber_eq_ok h
      rw [← r.unsigned_window r.offset hpos hwidth, checked?, window?_eq hroom]
      rfl
  | text width =>
      rw [Act.answer] at h
      obtain ⟨hroom, rfl⟩ := answer_eq_ok h
      have hletters := r.letters_field r.offset (width / 6) (Nat.mod_lt width (by decide))
      rw [Nat.div_add_mod] at hletters
      rw [← hletters, checked?, letters?_eq (by omega)]
      rfl
  | seek target => exact congrArg some (Except.ok.inj h)
  | skip width  => exact congrArg some (Except.ok.inj h)

/-- **Every act keeps the place.**  After any sequence of acts the reader stands where their widths
say, whatever became of each; the next act moves it by its width, up to the largest offset there is,
whether it fails or not; it fails as its width, the place and the number of valid bits say; and if it
succeeds, every shift, difference and index on the way was in range. -/
theorem acts_keep_place (p : Payload) (start : Nat) (before : List Act) (a : Act) :
    let r := (p.readerAt start).after before
    r.offset = before.foldl (fun offset a => a.move offset) start ∧
      r.bits = p.bits ∧ r.bytes = p.bytes ∧
      (r.remaining : Int) = max ((p.bits : Int) - r.offset) 0 ∧
      (a.read.run r).2 = { r with offset := a.move r.offset } ∧
      (∀ e, (a.read.run r).1 = .error e ↔ a.fault? p.bits r.offset = some e) ∧
      ∀ found, (a.read.run r).1 = .ok found → a.checked? r = some found := by
  intro r
  have hr : r = { p.readerAt start with offset := before.foldl (fun offset a => a.move offset) start } :=
    after_eq ..
  have hbits : r.bits = p.bits := by rw [hr]; rfl
  refine ⟨by rw [hr], hbits, by rw [hr]; rfl, ?_, ?_, fun e => ?_, fun found hfound => ?_⟩
  · rw [remaining, hbits]
    omega
  · rw [a.run_eq]
  · rw [a.run_eq, ← hbits]
    exact a.answer_eq_error_iff
  · rw [a.run_eq] at hfound
    exact a.checked?_eq hfound

/-- Six bits, a text that is too long, a number that is too wide and one that is asked for at the
largest offset: what is read next is read at its own place, and fails or succeeds as if nothing had
failed before. -/
theorem acts_keep_place_faults :
    let p := (Payload.empty.carry [true, false, true, true, false, true]).1
    let before : List Act := [.text 12, .signed 33, .seek Limits.word, .unsigned 8]
    let r := (p.readerAt 0).after before
    let s := (p.readerAt 0).after (before ++ [.seek 2])
    r.offset = Limits.word ∧
      ((Act.bool).read.run r).1 = .error (.outOfBounds Limits.word 1 6) ∧
      ∃ found, ((Act.unsigned 4).read.run s).1 = .ok found ∧ (Act.unsigned 4).checked? s = some found := by
  intro p before r s
  have hbits : p.bits = 6 := (Payload.empty.carry_eq (by decide)).2.1
  obtain ⟨hoffset, -, -, -, -, hfault, -⟩ := acts_keep_place p 0 before .bool
  obtain ⟨hplace, -, -, -, -, hnone, hchecked⟩ :=
    acts_keep_place p 0 (before ++ [.seek 2]) (.unsigned 4)
  have hend : r.offset = Limits.word := hoffset.trans (by decide)
  refine ⟨hend, (hfault _).mpr ?_, ?_⟩
  · rw [hend, hbits]
    rfl
  · cases hfound : ((Act.unsigned 4).read.run s).1 with
    | ok found => exact ⟨found, rfl, hchecked found hfound⟩
    | error e =>
        have hfails := (hnone e).mp hfound
        rw [hplace, hbits] at hfails
        cases hfails

end Reader

end Ais
