import Ais.Proofs.Payload.Window
import Ais.Report

/-!
# Payloads — reads keep to the valid bits

A window reaches beyond its field, and may reach beyond the valid bits and beyond the bytes; what is
read does not.  Two payloads agree when they have as many valid bits and these are the same
(`Payload.Agree`), whatever fill bits and bytes stand behind them.  A read is confined when it finds
the same on readers that agree, and leaves them in agreement (`Reader.Confined`); every read is, and
so is what is put together from confined reads (`Confined.bind`).

* `Reader.Agree.transcript_congr`: on readers that agree one act after the other finds the same, or
  fails in the same way, and leaves the same offset and as many bits ahead.
* `Payload.agree_iff_reads`: payloads agree if and only if no sequence of reads, from whatever bit
  on, tells them apart, and then they have the same type and the same reports.
-/

namespace Ais

open Bits

namespace Reader

variable {r s : Reader} {α β : Type}

/-- Readers at one place of payloads whose valid bits are the same. -/
structure Agree (r s : Reader) : Prop where
  bits   : r.bits = s.bits
  offset : r.offset = s.offset
  bit    : ∀ i < r.bits, bitAt r.bytes i = bitAt s.bytes i

namespace Agree

/-- Readers that agree go on together. -/
theorem advance (h : r.Agree s) (width : Nat) : (r.advance width).Agree (s.advance width) :=
  ⟨h.bits, by rw [Reader.advance, Reader.advance, h.offset], h.bit⟩

theorem seek (h : r.Agree s) (offset : Nat) : (r.seek offset).Agree (s.seek offset) :=
  ⟨h.bits, rfl, h.bit⟩

theorem remaining_eq (h : r.Agree s) : r.remaining = s.remaining := by
  rw [remaining, remaining, h.bits, h.offset]

/-- A field among the valid bits is the same. -/
theorem field_eq (h : r.Agree s) {start width : Nat} (hroom : start + width ≤ r.bits) :
    r.field start width = s.field start width := by
  apply List.map_congr_left
  intro j hj
  rw [List.mem_range] at hj
  exact h.bit _ (by omega)

/-- What they are asked they answer alike, a field that does not fit included. -/
theorem answer_eq (h : r.Agree s) (width : Nat) (f : List Bool → α) :
    r.answer width f = s.answer width f := by
  rw [answer, answer, ← h.bits, ← h.offset]
  by_cases hroom : r.offset + width ≤ r.bits
  · rw [if_pos hroom, if_pos hroom, h.field_eq hroom]
  · rw [if_neg hroom, if_neg hroom]

theorem answerNumber_eq (h : r.Agree s) (width : Nat) (f : List Bool → α) :
    r.answerNumber width f = s.answerNumber width f := by
  rw [answerNumber, answerNumber, h.answer_eq]

end Agree

/-! ### Confined reads -/

/-- The read finds the same on readers that agree, and leaves them in agreement. -/
def Confined (m : Read α) : Prop :=
  ∀ r s : Reader, r.Agree s → (m.run r).1 = (m.run s).1 ∧ (m.run r).2.Agree (m.run s).2

@[simp] theorem confined_pure (a : α) : Confined (pure a : Read α) := fun _ _ h => ⟨rfl, h⟩

@[simp] theorem confined_throw (e : Fault) : Confined (throw e : Read α) := fun _ _ h => ⟨rfl, h⟩

/-- **Confined reads one after the other are confined**, whatever the later make of what the earlier
found. -/
theorem Confined.bind {m : Read α} {f : α → Read β} (hm : Confined m)
    (hf : ∀ a, Confined (f a)) : Confined (m >>= f) := by
  intro r s h
  obtain ⟨hfound, hleft⟩ := hm r s h
  rw [run_bind, run_bind]
  rcases hr : m.run r with ⟨x, r'⟩
  rcases hs : m.run s with ⟨y, s'⟩
  rw [hr, hs] at hfound hleft
  subst hfound
  cases x with
  | error e => exact ⟨rfl, hleft⟩
  | ok a    => exact hf a r' s' hleft

@[simp] theorem confined_skip (width : Nat) : Confined (skip width) := fun _ _ h =>
  ⟨rfl, h.advance width⟩

@[simp] theorem confined_unsigned (width : Nat) : Confined (unsigned width) := fun r s h => by
  rw [unsigned_run, unsigned_run, h.answerNumber_eq]
  exact ⟨rfl, h.advance width⟩

@[simp] theorem confined_signed (width : Nat) : Confined (signed width) := fun r s h => by
  rw [signed_run, signed_run, h.answerNumber_eq]
  exact ⟨rfl, h.advance width⟩

@[simp] theorem confined_bool : Confined bool := fun r s h => by
  rw [bool_run, bool_run, h.answerNumber_eq]
  exact ⟨rfl, h.advance 1⟩

/-- Each read sees the valid bits alone, and so do those made of them. -/
@[simp] theorem confined_text (width : Nat) : Confined (text width) := fun r s h => by
  rw [text_run, text_run, h.answer_eq]
  exact ⟨rfl, h.advance width⟩

/-! ### Sequences of reads -/

/-- What can be done with a reader. -/
inductive Act
  | unsigned (width : Nat)
  | signed (width : Nat)
  | bool
  | text (width : Nat)
  | seek (offset : Nat)
  | skip (width : Nat)

/-- What is found by it. -/
inductive Found
  | unsigned (n : UInt32)
  | signed (n : Int32)
  | bool (b : Bool)
  | text (t : String)
  | nothing

def Act.read : Act → Read Found
  | .unsigned width => return .unsigned (← Reader.unsigned width)
  | .signed width   => return .signed (← Reader.signed width)
  | .bool           => return .bool (← Reader.bool)
  | .text width     => return .text (← Reader.text width)
  | .seek offset    => ExceptT.mk fun r => (.ok .nothing, r.seek offset)
  | .skip width     => do
    Reader.skip width
    return .nothing

/-- What one act after the other finds, or how it fails, and after each the offset and the valid
bits ahead. -/
def transcript (r : Reader) : List Act → List (Except Fault Found × Nat × Nat)
  | []      => []
  | a :: as =>
    let after := (a.read.run r).2
    ((a.read.run r).1, after.offset, after.remaining) :: after.transcript as

/-- So does every single read. -/
theorem Act.confined_read (a : Act) : Confined a.read := by
  cases a with
  | unsigned width => exact .bind (confined_unsigned width) fun _ => confined_pure _
  | signed width   => exact .bind (confined_signed width) fun _ => confined_pure _
  | bool           => exact .bind confined_bool fun _ => confined_pure _
  | text width     => exact .bind (confined_text width) fun _ => confined_pure _
  | seek offset    => exact fun _ _ h => ⟨rfl, h.seek offset⟩
  | skip width     => exact .bind (confined_skip width) fun _ => confined_pure _

/-- **No sequence of reads tells readers that agree apart.** -/
theorem Agree.transcript_congr (h : r.Agree s) (as : List Act) : r.transcript as = s.transcript as := by
  induction as generalizing r s with
  | nil => rfl
  | cons a as ih =>
      obtain ⟨hfound, hleft⟩ := a.confined_read r s h
      rw [transcript, transcript, hfound, hleft.offset, hleft.remaining_eq, ih hleft]

/-- The number of the valid bits is found at the first. -/
theorem transcript_seek (i : Nat) : (r.transcript [.seek i]).map (·.2.2) = [r.bits - i] := rfl

/-- A bit is found by reading it. -/
theorem transcript_bit {i : Nat} (hi : i < r.bits) :
    (r.transcript [.seek i, .bool])[1]?.map Prod.fst = some (.ok (.bool (bitAt r.bytes i))) := by
  have hroom : (r.seek i).offset + 1 ≤ (r.seek i).bits := hi
  have hread : (Act.bool.read.run (r.seek i)).1 = .ok (.bool (bitAt r.bytes i)) := by
    rw [Act.read, run_bind, bool_run, answerNumber, if_neg (by decide), answer, if_pos hroom]
    change Except.ok (Found.bool (UInt32.ofNat (value [bitAt r.bytes i]) != 0)) = _
    cases bitAt r.bytes i <;> rfl
  exact congrArg some hread

end Reader

open Reader

/-- A position report is read from the valid bits alone. -/
theorem PositionReport.confined_fields : Confined fields := by
  unfold fields
  refine .bind (confined_unsigned 6) fun type => ?_
  split
  all_goals repeat refine .bind (by simp) fun _ => ?_
  all_goals exact confined_pure _

theorem VoyageReport.confined_body : Confined body := by
  unfold body
  repeat refine .bind (by simp) fun _ => ?_
  exact confined_pure _

/-- So is a voyage report. -/
theorem VoyageReport.confined_fields : Confined fields := by
  unfold fields
  refine .bind (confined_unsigned 6) fun type => ?_
  split
  · exact .bind (confined_throw _) fun _ => confined_body
  · exact confined_body

/-! ### Payloads -/

namespace Payload

variable {p q : Payload}

/-- Payloads that have as many valid bits, and the same.  Fill bits, and bytes behind them, may
differ. -/
def Agree (p q : Payload) : Prop :=
  p.bits = q.bits ∧ ∀ i < p.bits, bitAt p.bytes i = bitAt q.bytes i

/-- Payloads that agree are read by readers that agree, from any place. -/
theorem Agree.readerAt (h : p.Agree q) (start : Nat) : (p.readerAt start).Agree (q.readerAt start) :=
  ⟨h.1, rfl, h.2⟩

/-- Whatever is read of them is the same. -/
theorem Agree.read_eq (h : p.Agree q) {α : Type} {reads : Read α} (hreads : Confined reads) :
    p.read reads = q.read reads :=
  (hreads _ _ (h.readerAt 0)).1

/-- So is the type. -/
theorem Agree.messageType_eq (h : p.Agree q) : p.messageType = q.messageType :=
  h.read_eq (.bind (confined_unsigned 6) fun _ => confined_pure _)

/-- And so is the report. -/
theorem Agree.decode_eq (h : p.Agree q) : Report.decode p = Report.decode q := by
  have hmmsi := (confined_unsigned 30 _ _ (h.readerAt 8)).1
  simp only [Report.decode, PositionReport.decode, VoyageReport.decode, h.messageType_eq, hmmsi,
    h.read_eq PositionReport.confined_fields, h.read_eq VoyageReport.confined_fields]

/-- **Reads see the valid bits and nothing else.** -/
theorem agree_iff_reads (p q : Payload) : p.Agree q ↔
    (∀ start as, (p.readerAt start).transcript as = (q.readerAt start).transcript as) ∧
      p.messageType = q.messageType ∧
      PositionReport.decode p = PositionReport.decode q ∧
      VoyageReport.decode p = VoyageReport.decode q ∧
      Report.decode p = Report.decode q := by
  constructor
  · intro h
    exact ⟨fun start as => (h.readerAt start).transcript_congr as, h.messageType_eq,
      h.read_eq PositionReport.confined_fields, h.read_eq VoyageReport.confined_fields,
      h.decode_eq⟩
  · rintro ⟨h, -⟩
    have hbits : p.bits = q.bits := by
      have hcount := congrArg (List.map (·.2.2)) (h 0 [.seek 0])
      rw [transcript_seek, transcript_seek] at hcount
      exact (List.cons.inj hcount).1
    refine ⟨hbits, fun i hi => ?_⟩
    have hi' : i < (q.readerAt 0).bits := Nat.lt_of_lt_of_eq hi hbits
    have hbit := transcript_bit (r := p.readerAt 0) hi
    rw [h, transcript_bit hi', Option.some.injEq, Except.ok.injEq, Found.bool.injEq] at hbit
    exact hbit.symm

/-- Ten valid bits.  The bits behind them, the number of bytes and the channel tell the payloads
apart; no read does. -/
theorem agree_iff_reads_ten :
    let p : Payload :=
      ⟨⟨[0xFF, 0xF0], List.replicate 552 0, by rw [List.length_replicate]; rfl⟩, 10, none⟩
    let q : Payload :=
      ⟨⟨[0xFF, 0xC0, 7], List.replicate 551 0, by rw [List.length_replicate]; rfl⟩, 10, some 65⟩
    p.bytes ≠ q.bytes ∧
      ∀ start as, (p.readerAt start).transcript as = (q.readerAt start).transcript as := by
  intro p q
  have hagree : p.Agree q := ⟨rfl, by decide⟩
  exact ⟨by decide, ((agree_iff_reads p q).mp hagree).1⟩

end Payload

end Ais
