import Ais.Proofs.Sentence.Record

/-!
# Sentences — line ends

Which line terminators a sentence takes with it.  Each field but the channel has a class of bytes
that leaves them out; the channel is any byte but a comma.  So a sentence holds no line terminator
but the one that is its channel (`Form.Valid.lineEnds`), and that one stands between two commas.

* `parse_lineEnds`: the bytes read hold no other, and unless a line ends in a comma and the next
  one begins with a comma, what is read from it does not depend on the lines behind it.
* `parse_across_lines`: two such lines are read as one sentence.
-/

namespace Ais

variable {talkers : Talkers}

/-- **The line terminators of a sentence** are those that its channel is. -/
theorem Form.Valid.lineEnds {f : Form} (hf : f.Valid talkers) :
    f.text.filter Ascii.isLineEnd = f.channel.toList.filter Ascii.isLineEnd := by
  have hbefore : (f.numbering ++ [Ascii.comma]).filter Ascii.isLineEnd = [] :=
    List.filter_eq_nil_iff.mpr fun b hb hend => (hf.not_mem hend).1 hb
  have hbehind : (Ascii.comma :: f.closing).filter Ascii.isLineEnd = [] :=
    List.filter_eq_nil_iff.mpr fun b hb hend => (hf.not_mem hend).2 hb
  rw [f.text_channel, List.filter_append (f.numbering ++ [Ascii.comma]), hbefore,
    List.filter_append, hbehind, List.nil_append, List.append_nil]

/-- A line ends in a comma, and the next one begins with one: a field may hold the line terminator
between them. -/
def Sentence.SpansLines (own more : List UInt8) : Prop :=
  own.getLast? = some Ascii.comma ∧ more.head? = some Ascii.comma

variable {own more more' : List UInt8} {e : UInt8}

/-- The first line is what stands before the first line terminator. -/
theorem takeWhile_firstLine (hown : ∀ b ∈ own, Ascii.isLineEnd b = false)
    (he : Ascii.isLineEnd e = true) (more : List UInt8) :
    (own ++ e :: more).takeWhile (!Ascii.isLineEnd ·) = own := by
  rw [List.takeWhile_append_of_pos (by simpa using hown),
    List.takeWhile_cons_of_neg (by simpa using he), List.append_nil]

/-- What is read from the first line is read from it whatever stands behind it. -/
theorem Header.read_firstLine (hown : ∀ b ∈ own, Ascii.isLineEnd b = false)
    (he : Ascii.isLineEnd e = true) (hspans : ¬ Sentence.SpansLines own more) {h : Header}
    (hread : read talkers (own ++ e :: more) = .ok h) (more' : List UInt8) :
    h.size ≤ own.length ∧ read talkers (own ++ e :: more') = .ok h := by
  obtain ⟨f, hf, rfl, rest, hrest, hline⟩ := read_eq_ok_iff.mp hread
  by_cases hle : f.text.length ≤ own.length
  · -- the sentence ends in the first line
    obtain ⟨front, rfl⟩ := List.prefix_of_prefix_length_le (hline ▸ List.prefix_append f.text rest)
      (List.prefix_append own _) hle
    refine ⟨hle, read_eq_ok_iff.mpr ⟨f, hf, rfl, front ++ e :: more', ?_, ?_⟩⟩
    · exact List.append_ne_nil_of_right_ne_nil _ (List.cons_ne_nil _ _)
    · rw [List.append_assoc]
  · -- the line terminator is the channel, and the lines meet in it
    have hbegins : own ++ [e] <+: own ++ e :: more :=
      (List.prefix_append_right_inj own).mpr ⟨more, rfl⟩
    have hfront : own ++ [e] <+: f.text := by
      refine List.prefix_of_prefix_length_le hbegins (hline ▸ List.prefix_append f.text rest) ?_
      rw [List.length_append, List.length_singleton]
      omega
    have hchannel := hf.channel_of_mem he (hfront.subset (List.mem_append_right _ (by simp)))
    have hbefore : ∀ b ∈ f.numbering ++ [Ascii.comma], Ascii.isLineEnd b = false :=
      fun b hb => Bool.eq_false_iff.mpr fun hend => (hf.not_mem hend).1 hb
    have hparts : own ++ e :: more =
        f.numbering ++ [Ascii.comma] ++ e :: (Ascii.comma :: f.closing ++ rest) := by
      rw [hline, f.text_channel, hchannel, List.append_assoc]
      rfl
    have hown' : own = f.numbering ++ [Ascii.comma] := by
      have := congrArg (List.takeWhile (!Ascii.isLineEnd ·)) hparts
      rwa [takeWhile_firstLine hown he, takeWhile_firstLine hbefore he] at this
    refine absurd ⟨?_, ?_⟩ hspans
    · rw [hown', List.getLast?_concat]
    · rw [hown'] at hparts
      have := List.append_cancel_left hparts
      rw [(List.cons.inj this).2]
      rfl

namespace Sentence

/-- What is read into a record are the bytes of the header. -/
theorem parse_congr {line line' : List UInt8} {h : Header}
    (hread : Header.read talkers line = .ok h) (hread' : Header.read talkers line' = .ok h)
    (htake : line.take h.size = line'.take h.size) (old : Sentence) :
    old.parse talkers line = old.parse talkers line' := by
  simp only [parse, hread, hread', fillFrom, htake]

/-- **Sentences and line ends.**  Of the bytes read none is a line terminator, unless the channel is
one.  What is read from a line, if anything, does not depend on the lines behind it, unless both it
and they leave a comma at the line terminator between them.  (Why nothing is read may depend on
them: the fault may name a byte of theirs.) -/
theorem parse_lineEnds (talkers : Talkers) (old : Sentence) :
    (∀ line s size, old.parse talkers line = (s, .ok size) →
      (line.take size).filter Ascii.isLineEnd = s.channel.toList.filter Ascii.isLineEnd) ∧
    ∀ own e more more', (∀ b ∈ own, Ascii.isLineEnd b = false) → Ascii.isLineEnd e = true →
      ¬ SpansLines own more → ¬ SpansLines own more' →
        (old.parse talkers (own ++ e :: more)).1 = (old.parse talkers (own ++ e :: more')).1 ∧
        (old.parse talkers (own ++ e :: more)).2.toOption =
          (old.parse talkers (own ++ e :: more')).2.toOption := by
  refine ⟨?_, ?_⟩
  · intro line s size hparse
    obtain ⟨f, hf, hs, rfl, rest, -, rfl⟩ := parse_inv hparse
    rw [List.take_left, hs.channel, hf.lineEnds]
  · intro own e more more' hown he hspans hspans'
    cases hread : Header.read talkers (own ++ e :: more) with
    | ok h =>
        obtain ⟨hle, hread'⟩ := Header.read_firstLine hown he hspans hread more'
        have htake : ∀ more, (own ++ e :: more).take h.size = own.take h.size := fun _ =>
          List.take_append_of_le_length hle
        rw [parse_congr hread hread' ((htake more).trans (htake more').symm)]
        exact ⟨rfl, rfl⟩
    | error why =>
        cases hread' : Header.read talkers (own ++ e :: more') with
        | ok h =>
            have := (Header.read_firstLine hown he hspans' hread' more).2
            rw [hread] at this
            cases this
        | error why' =>
            rw [old.parse_of_error hread, old.parse_of_error hread']
            exact ⟨rfl, rfl⟩

/-- One sentence with a line feed as its channel, and one line before two others. -/
theorem parse_lineEnds_of_two :
    let spanning := Ascii.ofString "AIVDM,1,1,,\n,w,0*1A\r"
    let own := Ascii.ofString "AIVDM,1,1,,A,w0h,2*0B"
    let more := Ascii.ofString ",w,0*1A\n"
    (spanning.take 19).filter Ascii.isLineEnd = [Ascii.lineFeed] ∧
      ¬ SpansLines own more ∧ ¬ SpansLines own [] ∧
      (empty.parse .any (own ++ Ascii.lineFeed :: more)).2.toOption =
        (empty.parse .any (own ++ [Ascii.lineFeed])).2.toOption := by
  intro spanning own more
  obtain ⟨hread, hline⟩ := parse_lineEnds .any empty
  have hsize : (empty.parse .any spanning).2 = .ok 19 := by decide +kernel
  have hchannel : (empty.parse .any spanning).1.channel = some Ascii.lineFeed := by decide +kernel
  have hparse : empty.parse .any spanning = ((empty.parse .any spanning).1, .ok 19) := by
    rw [← hsize]
  have hown : ∀ b ∈ own, Ascii.isLineEnd b = false := by decide +kernel
  have hlast : own.getLast? ≠ some Ascii.comma := by decide +kernel
  have hmore : ¬ SpansLines own more := fun h => hlast h.1
  have hnone : ¬ SpansLines own [] := fun h => hlast h.1
  refine ⟨?_, hmore, hnone, ?_⟩
  · rw [hread _ _ _ hparse, hchannel]
    rfl
  · exact (hline own Ascii.lineFeed more [] hown rfl hmore hnone).2

/-- A line feed is among the bytes read of a sentence, whose first line alone, or before another
line, is none. -/
theorem parse_across_lines :
    let line := Ascii.ofString "AIVDM,1,1,,\n,w,0*1A\r"
    (empty.parse .any line).2 = .ok 19 ∧ Ascii.lineFeed ∈ line.take 19 ∧
      ((empty.parse .any (line.take 12)).2.isOk = false) ∧
      (empty.parse .any (line.take 12 ++ Ascii.ofString "AIVDM,1,1,,A,w0h,2*0B\n")).2.isOk =
        false := by
  decide +kernel

end Sentence

end Ais
