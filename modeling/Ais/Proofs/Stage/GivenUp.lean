import Ais.Proofs.Stage.Pieces

/-!
# Intake — lines given up

What is left of a stream is a line without an end, and no line feed is in it (`lineFeed_not_mem_left`).
Whoever reads the stream waits for the end, but not with a line that has grown longer than a sentence
can be: it is given up.  No sentence is lost by that, since nothing that could still come would make
the line one (`parse_left_long`).

`givenUp` are the lines that are given up when a stream is read, and so none of them would have become
a sentence either (`line?_givenUp`); `lastLine` is what is left of the last one at the end.
-/

namespace Ais.Intake

variable {talkers : Talkers} {bytes rest : List UInt8}

/-! ### What is left -/

/-- No line of what is left has its end. -/
theorem lines_left (talkers : Talkers) (bytes : List UInt8) :
    lines talkers (lines talkers bytes).2 = ([], (lines talkers bytes).2) := by
  fun_induction lines talkers bytes with
  | case1 bytes hnone =>
      rw [lines_congr (skipLineEnds_self bytes), lines_of_none hnone]
  | case2 bytes line rest hsome ih => exact ih

theorem suffix_lines (talkers : Talkers) (bytes : List UInt8) :
    (lines talkers bytes).2 <:+ bytes := by
  fun_induction lines talkers bytes with
  | case1 bytes hnone => exact suffix_skipLineEnds bytes
  | case2 bytes line rest hsome ih => exact ih.trans (suffix_line? hsome)

theorem line?_of_lines (hrest : lines talkers rest = ([], rest)) :
    line? talkers rest = none ∧ skipLineEnds rest = rest := by
  cases hline : line? talkers rest with
  | none =>
      rw [lines_of_none hline] at hrest
      exact ⟨rfl, congrArg Prod.snd hrest⟩
  | some found =>
      rw [lines_of_some hline] at hrest
      cases hrest

theorem afterLine?_eq_none_iff : afterLine? bytes = none ↔ Ascii.lineFeed ∉ bytes := by
  induction bytes with
  | nil => simp [afterLine?]
  | cons b bytes ih =>
      rw [afterLine?, List.mem_cons, not_or]
      by_cases hb : b = Ascii.lineFeed
      · simp [hb]
      · rw [if_neg hb, ih]
        exact ⟨fun h => ⟨fun e => hb e.symm, h⟩, And.right⟩

/-- What is left is no sentence, and has no line feed. -/
theorem parseSize_left {b : UInt8} {r : List UInt8}
    (hrest : lines talkers (b :: r) = ([], b :: r)) :
    (∃ s, Sentence.empty.parseSize talkers (Sentence.body (b :: r)) = (s, 0)) ∧
      Ascii.lineFeed ∉ Sentence.body (b :: r) := by
  obtain ⟨hnone, hskip⟩ := line?_of_lines hrest
  rcases hparse : Sentence.empty.parseSize talkers (Sentence.body (b :: r)) with ⟨s, size⟩
  rw [line?_of_parse hskip hparse] at hnone
  split at hnone
  · cases hnone
  · obtain rfl : size = 0 := by omega
    exact ⟨⟨s, rfl⟩, afterLine?_eq_none_iff.mp (Option.map_eq_none_iff.mp hnone)⟩

/-- **No line feed is in what is left.** -/
theorem lineFeed_not_mem_left (hrest : lines talkers rest = ([], rest)) :
    Ascii.lineFeed ∉ rest := by
  cases rest with
  | nil => exact List.not_mem_nil
  | cons b r =>
      have hbody := (parseSize_left hrest).2
      rw [Sentence.body] at hbody
      split at hbody
      · rename_i hstart
        -- the start delimiter is no line feed either
        refine fun hmem => (List.mem_cons.mp hmem).elim (fun e => ?_) hbody
        rw [← e] at hstart
        cases hstart
      · exact hbody

/-- Nothing is left where the last byte is a line feed. -/
theorem eq_nil_of_suffix_lineFeed (hsuffix : rest <:+ bytes ++ [Ascii.lineFeed])
    (hrest : Ascii.lineFeed ∉ rest) : rest = [] := by
  rcases List.suffix_concat_iff.mp hsuffix with hnil | ⟨front, heq, -⟩
  · exact hnil
  · exact absurd (heq ▸ List.mem_append_right front List.mem_cons_self) hrest

/-- With a line feed at the end nothing is left. -/
theorem lines_lineFeed (talkers : Talkers) (bytes : List UInt8) :
    (lines talkers (bytes ++ [Ascii.lineFeed])).2 = [] :=
  eq_nil_of_suffix_lineFeed (suffix_lines talkers _) (lineFeed_not_mem_left (lines_left talkers _))

/-! ### Lines too long -/

/-- No sentence is longer than its limit, so more bytes do not make one of a line that is. -/
theorem read_append_error_of_long {why : Malformation}
    (hread : Header.read talkers bytes = .error why) (hlong : Limits.sentenceBytes < bytes.length)
    (more : List UInt8) : ∃ why', Header.read talkers (bytes ++ more) = .error why' := by
  cases hread' : Header.read talkers (bytes ++ more) with
  | error why' => exact ⟨why', rfl⟩
  | ok h =>
      exfalso
      obtain ⟨f, hf, rfl, behind, hbehind, heq⟩ := Header.read_eq_ok_iff.mp hread'
      have hlt := Nat.lt_of_le_of_lt hf.size hlong
      obtain ⟨front, rfl⟩ := List.prefix_of_prefix_length_le
        (heq ▸ List.prefix_append f.text behind) (List.prefix_append bytes more) (Nat.le_of_lt hlt)
      have hfront : front ≠ [] := by
        rintro rfl
        simp at hlt
      rw [Header.read_eq_ok_iff.mpr ⟨f, hf, rfl, front, hfront, rfl⟩] at hread
      cases hread

theorem length_le_body (line : List UInt8) : line.length ≤ (Sentence.body line).length + 1 := by
  unfold Sentence.body
  split
  · exact Nat.zero_le _
  · split
    · exact Nat.le_refl _
    · exact Nat.le_succ _

/-- **What is left and too long is read as no sentence**, whatever comes behind it. -/
theorem read_left_long (hrest : lines talkers rest = ([], rest))
    (hlong : Limits.tailBytes < rest.length) (more : List UInt8) :
    skipLineEnds (rest ++ more) = rest ++ more ∧
      ∃ why, Header.read talkers (Sentence.body (rest ++ more)) = .error why := by
  obtain ⟨-, hskip⟩ := line?_of_lines hrest
  cases rest with
  | nil => cases hlong
  | cons b r =>
      obtain ⟨⟨s, hparse⟩, -⟩ := parseSize_left hrest
      obtain ⟨why, hread, -⟩ := (Sentence.parseSize_inv hparse).resolve_left
        (fun ⟨_, _, _, hpos, _⟩ => absurd hpos (Nat.lt_irrefl 0))
      have hlength := length_le_body (b :: r)
      refine ⟨skipLineEnds_append hskip more, ?_⟩
      rw [body_append]
      exact read_append_error_of_long hread (by simp only [Limits.tailBytes] at hlong; omega) more

/-- **A line too long to be a sentence is skipped**, wherever its end comes. -/
theorem line?_of_long (hrest : lines talkers rest = ([], rest))
    (hlong : Limits.tailBytes < rest.length) (more : List UInt8) :
    line? talkers (rest ++ Ascii.lineFeed :: more) = some (none, more) := by
  obtain ⟨hskip, why, hread⟩ := read_left_long hrest hlong (Ascii.lineFeed :: more)
  cases rest with
  | nil => cases hlong
  | cons b r =>
      have hafter := afterLine?_eq_none_iff.mpr (parseSize_left hrest).2
      rw [List.cons_append] at hskip hread ⊢
      have hparse : Sentence.empty.parseSize talkers
          (Sentence.body (b :: (r ++ Ascii.lineFeed :: more))) = (Sentence.empty.reset, 0) := by
        rw [Sentence.parseSize, Sentence.empty.parse_of_error hread]
        rfl
      have hbody : Sentence.body (b :: (r ++ Ascii.lineFeed :: more)) = _ :=
        body_append b r (Ascii.lineFeed :: more)
      rw [line?_of_parse hskip hparse, if_neg (Nat.lt_irrefl 0), hbody, afterLine?_lineFeed hafter,
        Option.map_some]

/-- No sentence is in front, whatever comes behind. -/
theorem line?_ne_sentence (hrest : lines talkers rest = ([], rest))
    (hlong : Limits.tailBytes < rest.length) (more : List UInt8) (s : Sentence)
    (behind : List UInt8) : line? talkers (rest ++ more) ≠ some (some s, behind) := by
  intro hline
  obtain ⟨hskip, why, hread⟩ := read_left_long hrest hlong more
  obtain ⟨b, r, hbytes, ⟨t, size, hparse, hpos, -⟩ | ⟨-, hnone, -⟩⟩ := line?_inv hline
  · rw [← hbytes, hskip, Sentence.parseSize, Sentence.empty.parse_of_error hread] at hparse
    cases hparse
    exact absurd hpos (Nat.lt_irrefl 0)
  · cases hnone

section

variable {Q : Type} {n : Nat} {isOpen : Q → Prop} {held : Q → List (Buffer Sentence n)}
  [Sink Q (Buffer Sentence n)]

/-- **No sentence is lost with a line that is given up.**  If an open intake with room takes nothing of
bytes longer than a sentence can be, then whatever comes behind them, the line that they begin is
refused, and no sentence is in front. -/
theorem parse_left_long (keeps : Sink.Keeps isOpen held) (hn : 0 < n) {i : Intake Q n}
    (hopen : isOpen i.sink) (hclean : i.pool.Clean) (room : Sink.isFull i.sink = false)
    {tail : List UInt8} (hnone : (i.ingest tail).2 = .ok 0)
    (hlong : Limits.tailBytes < tail.length) (more : List UInt8) :
    (∀ s : Sentence, ∃ why,
        s.parse i.talkers (Sentence.body (tail ++ more)) = (s.reset, .error (.malformed why))) ∧
      ∀ s behind, line? i.talkers (tail ++ more) ≠ some (some s, behind) := by
  have hleft := lines_of_none_taken keeps hn hopen hclean room hnone
  obtain ⟨-, why, hread⟩ := read_left_long hleft hlong more
  exact ⟨fun s => ⟨why, s.parse_of_error hread⟩, line?_ne_sentence hleft hlong more⟩

/-- A sentence of eighty characters, without its end and then with it. -/
theorem parse_left_eighty :
    let i : Intake (Ledger (Buffer Sentence 1)) 1 := ⟨.any, .empty (some 1), ⟨[]⟩, .zero⟩
    let tail := Ascii.ofString "!AIVDM,1,1,,A," ++ List.replicate 80 119
    let more := Ascii.ofString ",0*26\r\n"
    (i.ingest tail).2 = .ok 0 ∧ Limits.tailBytes < tail.length ∧
      (∀ s : Sentence, ∃ why,
        s.parse .any (Sentence.body (tail ++ more)) = (s.reset, .error (.malformed why))) ∧
      ∀ s behind, line? .any (tail ++ more) ≠ some (some s, behind) := by
  intro i tail more
  have hnone : (i.ingest tail).2 = .ok 0 := by decide +kernel
  have hlong : Limits.tailBytes < tail.length := by decide +kernel
  exact ⟨hnone, hlong, parse_left_long Ledger.keeps (by decide) (i := i) trivial
    (fun _ h => absurd h List.not_mem_nil) rfl hnone hlong more⟩

end

/-! ### Read by read -/

/-- The lines given up on the way: those of which a read leaves more than a sentence can be long. -/
def givenUp (talkers : Talkers) (tail : List UInt8) : List (List UInt8) → List (List UInt8)
  | []           => []
  | read :: more =>
    let rest := (lines talkers (tail ++ read)).2
    if Limits.tailBytes < rest.length then rest :: givenUp talkers [] more
    else givenUp talkers rest more

/-- What is left of the last line at the end of the stream. -/
def lastLine (talkers : Talkers) (tail : List UInt8) : List (List UInt8) → List UInt8
  | []           => tail
  | read :: more =>
    let rest := (lines talkers (tail ++ read)).2
    if Limits.tailBytes < rest.length then lastLine talkers [] more else lastLine talkers rest more

/-- A line that is given up is a piece of the stream that has no end and is too long. -/
theorem mem_givenUp {tail line : List UInt8} {reads : List (List UInt8)}
    (h : line ∈ givenUp talkers tail reads) :
    lines talkers line = ([], line) ∧ Limits.tailBytes < line.length ∧
      line <:+: tail ++ reads.flatten := by
  induction reads generalizing tail with
  | nil => cases h
  | cons read more ih =>
      have hsuffix := suffix_lines talkers (tail ++ read)
      rw [givenUp] at h
      rw [List.flatten_cons, ← List.append_assoc]
      split at h
      · rename_i hlong
        rcases List.mem_cons.mp h with rfl | h
        · exact ⟨lines_left talkers _, hlong, hsuffix.isInfix.trans (List.infix_append [] _ _)⟩
        · obtain ⟨hleft, hline, hinfix⟩ := ih h
          exact ⟨hleft, hline, hinfix.trans (List.suffix_append _ _).isInfix⟩
      · obtain ⟨hleft, hline, hinfix⟩ := ih h
        exact ⟨hleft, hline, hinfix.trans (List.suffix_append_self_iff.mpr hsuffix).isInfix⟩

/-- No line that is given up would have become a sentence, whatever had come behind it. -/
theorem line?_givenUp {tail line : List UInt8} {reads : List (List UInt8)}
    (h : line ∈ givenUp talkers tail reads) (more : List UInt8) (s : Sentence)
    (behind : List UInt8) : line? talkers (line ++ more) ≠ some (some s, behind) := by
  obtain ⟨hleft, hlong, -⟩ := mem_givenUp h
  exact line?_ne_sentence hleft hlong more s behind

/-- No line is given up of a stream whose lines are short enough. -/
theorem givenUp_eq_nil {reads : List (List UInt8)}
    (hshort : ∀ piece, piece <:+: reads.flatten → Ascii.lineFeed ∉ piece →
      piece.length ≤ Limits.tailBytes) : givenUp talkers [] reads = [] := by
  refine List.eq_nil_iff_forall_not_mem.mpr fun line hmem => ?_
  obtain ⟨hleft, hlong, hinfix⟩ := mem_givenUp hmem
  exact Nat.not_lt.mpr (hshort line hinfix (lineFeed_not_mem_left hleft)) hlong

theorem suffix_lastLine (talkers : Talkers) (tail : List UInt8) (reads : List (List UInt8)) :
    lastLine talkers tail reads <:+ tail ++ reads.flatten := by
  induction reads generalizing tail with
  | nil => exact (List.append_nil tail).symm ▸ List.suffix_refl tail
  | cons read more ih =>
      have hsuffix := suffix_lines talkers (tail ++ read)
      rw [lastLine, List.flatten_cons, ← List.append_assoc]
      split
      · exact (ih []).trans (List.suffix_append _ _)
      · exact (ih _).trans (List.suffix_append_self_iff.mpr hsuffix)

theorem lineFeed_not_mem_lastLine (talkers : Talkers) {tail : List UInt8}
    (htail : Ascii.lineFeed ∉ tail) (reads : List (List UInt8)) :
    Ascii.lineFeed ∉ lastLine talkers tail reads := by
  induction reads generalizing tail with
  | nil => exact htail
  | cons read more ih =>
      rw [lastLine]
      split
      · exact ih List.not_mem_nil
      · exact ih (lineFeed_not_mem_left (lines_left talkers _))

/-- Nothing is left of a stream that ends in a line feed. -/
theorem lastLine_eq_nil {reads : List (List UInt8)} (h : [Ascii.lineFeed] <:+ reads.flatten) :
    lastLine talkers [] reads = [] := by
  obtain ⟨front, heq⟩ := h
  have hsuffix := suffix_lastLine talkers [] reads
  rw [List.nil_append, ← heq] at hsuffix
  exact eq_nil_of_suffix_lineFeed hsuffix
    (lineFeed_not_mem_lastLine talkers List.not_mem_nil reads)

end Ais.Intake
