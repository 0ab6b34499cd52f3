import Ais.Proofs.Sentence.Record
import Ais.Stage.Intake

/-!
# Intake — the lines of a stream

What a stream says, line by line, and without batches: each line is the sentence it begins with, or
nothing (`Line`).  `line?` takes one line off the front, and `lines` all that have an end.

* `lines_append`: lines stay what they are when the stream goes on, and what had no end yet is read
  again with what follows.

This holds of all streams but those in which a line feed stands between two commas: there alone a
sentence goes on behind a line feed, which is its channel, and a line that was skipped could turn
out to have been a sentence.
-/

namespace Ais.Intake

/-- A line read: its sentence, in a new record, or nothing for a line that is skipped. -/
abbrev Line := Option Sentence

/-- The first line, and what stands behind it; nothing if no line has its end yet. -/
def line? (talkers : Talkers) (bytes : List UInt8) : Option (Line × List UInt8) :=
  match skipLineEnds bytes with
  | []        => none
  | b :: rest =>
    let body := Sentence.body (b :: rest)
    let (s, size) := Sentence.empty.parseSize talkers body
    if 0 < size then some (some s, body.drop size) else (afterLine? body).map (none, ·)

variable {talkers : Talkers} {bytes rest : List UInt8} {line : Line}

/-- Nothing but line ends is no line. -/
theorem line?_of_nil (h : skipLineEnds bytes = []) : line? talkers bytes = none := by
  rw [line?, h]

/-- What the first line is, given what is read of the text behind its start delimiter. -/
theorem line?_of_parse {b : UInt8} {r : List UInt8} {s : Sentence} {size : Nat}
    (h : skipLineEnds bytes = b :: r)
    (hparse : Sentence.empty.parseSize talkers (Sentence.body (b :: r)) = (s, size)) :
    line? talkers bytes =
      if 0 < size then some (some s, (Sentence.body (b :: r)).drop size)
      else (afterLine? (Sentence.body (b :: r))).map (none, ·) := by
  rw [line?, h]
  simp only [hparse]

/-- A line is a sentence and what stands behind it, or it is skipped to its line feed. -/
theorem line?_inv (h : line? talkers bytes = some (line, rest)) :
    ∃ b r, skipLineEnds bytes = b :: r ∧
      ((∃ s size, Sentence.empty.parseSize talkers (Sentence.body (b :: r)) = (s, size) ∧
        0 < size ∧ line = some s ∧ rest = (Sentence.body (b :: r)).drop size) ∨
      ((∃ s, Sentence.empty.parseSize talkers (Sentence.body (b :: r)) = (s, 0)) ∧ line = none ∧
        afterLine? (Sentence.body (b :: r)) = some rest)) := by
  cases hskip : skipLineEnds bytes with
  | nil => rw [line?_of_nil hskip] at h; cases h
  | cons b r =>
      rcases hparse : Sentence.empty.parseSize talkers (Sentence.body (b :: r)) with ⟨s, size⟩
      rw [line?_of_parse hskip hparse] at h
      refine ⟨b, r, rfl, ?_⟩
      by_cases hsize : 0 < size
      · rw [if_pos hsize] at h
        cases h
        exact .inl ⟨s, size, hparse, hsize, rfl, rfl⟩
      · rw [if_neg hsize, Option.map_eq_some_iff] at h
        obtain ⟨next, hafter, heq⟩ := h
        cases heq
        obtain rfl := Nat.eq_zero_of_not_pos hsize
        exact .inr ⟨⟨s, hparse⟩, rfl, hafter⟩

/-- A line takes a byte at least. -/
theorem length_line? (h : line? talkers bytes = some (line, rest)) :
    rest.length < bytes.length := by
  have passed := length_skipLineEnds_le bytes
  obtain ⟨b, r, hskip, ⟨s, size, hparse, hsize, -, rfl⟩ | ⟨-, -, hafter⟩⟩ := line?_inv h
  · have shorter := length_body_le (b :: r)
    have := (Sentence.parseSize_append hparse hsize []).2
    rw [hskip] at passed
    rw [List.length_drop]
    omega
  · have shorter := length_body_le (b :: r)
    have := length_afterLine hafter
    rw [hskip] at passed
    omega

/-- The lines that have their end, and what is left behind them. -/
def lines (talkers : Talkers) (bytes : List UInt8) : List Line × List UInt8 :=
  match _first : line? talkers bytes with
  | none              => ([], skipLineEnds bytes)
  | some (line, rest) => (line :: (lines talkers rest).1, (lines talkers rest).2)
termination_by bytes.length
decreasing_by all_goals exact length_line? _first

/-- Where no line has its end, all is left but the line ends in front. -/
theorem lines_of_none (h : line? talkers bytes = none) :
    lines talkers bytes = ([], skipLineEnds bytes) := by
  rw [lines]
  split
  · rfl
  · rename_i hsome
    rw [h] at hsome
    cases hsome

theorem lines_nil (talkers : Talkers) : lines talkers [] = ([], []) :=
  lines_of_none (line?_of_nil rfl)

/-- Where one has, it comes first, and then those of the rest. -/
theorem lines_of_some (h : line? talkers bytes = some (line, rest)) :
    lines talkers bytes = (line :: (lines talkers rest).1, (lines talkers rest).2) := by
  rw [lines]
  split
  · rename_i hnone
    rw [h] at hnone
    cases hnone
  · rename_i hsome
    rw [h] at hsome
    cases hsome
    rfl

/-- A line that is a sentence has been read. -/
theorem hasForm_of_line? {s : Sentence} (h : line? talkers bytes = some (some s, rest)) :
    s.HasForm := by
  obtain ⟨b, r, -, ⟨t, size, hparse, hsize, hline, -⟩ | ⟨-, hline, -⟩⟩ := line?_inv h
  · cases hline
    exact (Sentence.isRead_parseSize hparse hsize).hasForm
  · cases hline

/-- So has each of them. -/
theorem hasForm_of_mem_lines {s : Sentence} (h : some s ∈ (lines talkers bytes).1) :
    s.HasForm := by
  fun_induction lines talkers bytes with
  | case1 bytes hnone => cases h
  | case2 bytes line rest hsome ih =>
      rcases List.mem_cons.mp h with rfl | h
      · exact hasForm_of_line? hsome
      · exact ih h

/-! ### Streams that go on -/

theorem skipLineEnds_append_of_nil (h : skipLineEnds bytes = []) (more : List UInt8) :
    skipLineEnds (bytes ++ more) = skipLineEnds more := by
  have := List.dropWhile_eq_nil_iff.mp h
  exact List.dropWhile_append_of_pos this

/-- Line ends are skipped to the first byte that is none, whatever comes behind. -/
theorem skipLineEnds_append {b : UInt8} {r : List UInt8} (h : skipLineEnds bytes = b :: r)
    (more : List UInt8) : skipLineEnds (bytes ++ more) = b :: r ++ more := by
  induction bytes with
  | nil => cases h
  | cons c cs ih =>
      unfold skipLineEnds at h ih ⊢
      rw [List.dropWhile_cons] at h
      rw [List.cons_append, List.dropWhile_cons]
      by_cases hc : Ascii.isLineEnd c = true
      · rw [if_pos hc] at h ⊢
        exact ih h
      · rw [if_neg hc] at h ⊢
        rw [← List.cons_append, h]

/-- Whether a line begins with a start delimiter is known from its first byte. -/
theorem body_append (b : UInt8) (r more : List UInt8) :
    Sentence.body (b :: r ++ more) = Sentence.body (b :: r) ++ more := by
  simp only [Sentence.body, List.cons_append]
  split <;> rfl

/-- The end of a line stays where it is when the stream goes on. -/
theorem afterLine?_append (h : afterLine? bytes = some rest) (more : List UInt8) :
    afterLine? (bytes ++ more) = some (rest ++ more) := by
  induction bytes with
  | nil => cases h
  | cons b r ih =>
      rw [afterLine?] at h
      rw [List.cons_append, afterLine?]
      split at h
      · rename_i hb
        cases h
        rw [if_pos hb]
      · rename_i hb
        rw [if_neg hb, ih h]

/-- A line ends in a line feed. -/
theorem lineFeed_mem (h : afterLine? bytes = some rest) : Ascii.lineFeed ∈ bytes := by
  induction bytes with
  | nil => cases h
  | cons b r ih =>
      rw [afterLine?] at h
      split at h
      · rename_i hb
        exact hb ▸ List.mem_cons_self
      · exact List.mem_cons_of_mem b (ih h)

/-- The first line feed to come is the end of a line without one. -/
theorem afterLine?_lineFeed (h : afterLine? bytes = none) (more : List UInt8) :
    afterLine? (bytes ++ Ascii.lineFeed :: more) = some more := by
  induction bytes with
  | nil => rw [List.nil_append, afterLine?, if_pos rfl]
  | cons b bytes ih =>
      rw [afterLine?] at h
      rw [List.cons_append, afterLine?]
      by_cases hb : b = Ascii.lineFeed
      · rw [if_pos hb] at h
        cases h
      · rw [if_neg hb] at h ⊢
        exact ih h

/-- A line feed stands between two commas. -/
def BreaksField (bytes : List UInt8) : Prop :=
  [Ascii.comma, Ascii.lineFeed, Ascii.comma] <:+: bytes

/-- A sentence that goes on behind a line feed has it between two commas, and the second of them is
the next byte at the latest. -/
theorem breaksField_of_header {f : Form} (hf : f.Valid talkers) {more : List UInt8}
    (hbytes : bytes <+: f.text) (htext : f.text <+: bytes ++ more) (h : Ascii.lineFeed ∈ bytes) :
    BreaksField (bytes ++ more.take 1) := by
  have heq := f.text_channel
  rw [hf.channel_of_mem rfl (hbytes.subset h)] at heq
  -- the line feed among the bytes is the channel
  have hlt : (f.numbering ++ [Ascii.comma]).length < bytes.length := by
    by_contra hle
    have hbegins : bytes <+: f.numbering ++ [Ascii.comma] :=
      List.prefix_of_prefix_length_le hbytes (heq ▸ List.prefix_append _ _) (by omega)
    exact (hf.not_mem rfl).1 (hbegins.subset h)
  have hbroken : f.numbering ++ [Ascii.comma, Ascii.lineFeed, Ascii.comma] <+: f.text :=
    ⟨f.closing, by simp [heq]⟩
  have htake : bytes ++ more.take 1 <+: bytes ++ more :=
    (List.prefix_append_right_inj bytes).mpr (List.take_prefix 1 more)
  have hlength := (hbroken.trans htext).length_le
  have hbegins := List.prefix_of_prefix_length_le (hbroken.trans htext) htake (by
    simp only [List.length_append, List.length_cons, List.length_nil, List.length_take] at *
    omega)
  exact (List.suffix_append f.numbering _).isInfix.trans hbegins.isInfix

/-- A line feed between two commas in the rest of a stream is one in the stream. -/
theorem BreaksField.of_suffix (h : BreaksField rest) (hsuffix : rest <:+ bytes) :
    BreaksField bytes :=
  h.trans hsuffix.isInfix

/-- **A line once skipped is no sentence later**, unless a field goes on behind a line feed. -/
theorem read_append_error {why : Malformation} (hread : Header.read talkers bytes = .error why)
    (hafter : afterLine? bytes = some rest) {more : List UInt8}
    (hmore : ¬ BreaksField (bytes ++ more.take 1)) :
    ∃ why', Header.read talkers (bytes ++ more) = .error why' := by
  cases hread' : Header.read talkers (bytes ++ more) with
  | error why' => exact ⟨why', rfl⟩
  | ok h =>
      obtain ⟨f, hf, rfl, behind, hbehind, heq⟩ := Header.read_eq_ok_iff.mp hread'
      exfalso
      have hbytes : bytes <+: f.text ++ behind := heq ▸ List.prefix_append bytes more
      have htext : f.text <+: f.text ++ behind := List.prefix_append f.text behind
      by_cases hle : bytes.length ≤ f.text.length
      · -- the sentence goes on behind the line feed
        have hbegins := List.prefix_of_prefix_length_le hbytes htext hle
        exact hmore (breaksField_of_header hf hbegins (heq ▸ htext) (lineFeed_mem hafter))
      · obtain ⟨front, rfl⟩ := List.prefix_of_prefix_length_le htext hbytes (by omega)
        have hfront : front ≠ [] := by
          rintro rfl
          exact hle (by rw [List.append_nil])
        have := Header.read_eq_ok_iff.mpr ⟨f, hf, rfl, front, hfront, rfl⟩
        rw [hread] at this
        cases this

/-- So nothing of it is taken as a sentence then. -/
theorem parseSize_append_zero {old s : Sentence} (h : old.parseSize talkers bytes = (s, 0))
    (hafter : afterLine? bytes = some rest) {more : List UInt8}
    (hmore : ¬ BreaksField (bytes ++ more.take 1)) :
    ∃ t, old.parseSize talkers (bytes ++ more) = (t, 0) := by
  obtain ⟨why, hread, -⟩ := (Sentence.parseSize_inv h).resolve_left
    (fun ⟨_, _, _, hpos, _⟩ => absurd hpos (Nat.lt_irrefl 0))
  obtain ⟨why', hread'⟩ := read_append_error hread hafter hmore
  exact ⟨old.reset, by rw [Sentence.parseSize, old.parse_of_error hread']; rfl⟩

theorem suffix_body (line : List UInt8) : Sentence.body line <:+ line := by
  unfold Sentence.body
  split
  · exact List.suffix_rfl
  · split
    · exact List.suffix_cons _ _
    · exact List.suffix_rfl

/-- What stands behind the end of a line is an end of the stream. -/
theorem suffix_afterLine? (h : afterLine? bytes = some rest) : rest <:+ bytes := by
  induction bytes with
  | nil => cases h
  | cons b bytes ih =>
      rw [afterLine?] at h
      split at h
      · cases h
        exact List.suffix_cons b rest
      · exact (ih h).trans (List.suffix_cons b bytes)

theorem suffix_skipLineEnds (bytes : List UInt8) : skipLineEnds bytes <:+ bytes :=
  List.dropWhile_suffix _

/-- What stands behind a line is an end of the stream. -/
theorem suffix_line? (h : line? talkers bytes = some (line, rest)) : rest <:+ bytes := by
  have hskip := suffix_skipLineEnds bytes
  obtain ⟨b, r, heq, ⟨s, size, -, -, -, rfl⟩ | ⟨-, -, hafter⟩⟩ := line?_inv h
  · rw [heq] at hskip
    exact (List.drop_suffix _ _).trans ((suffix_body (b :: r)).trans hskip)
  · rw [heq] at hskip
    exact (suffix_afterLine? hafter).trans ((suffix_body (b :: r)).trans hskip)

/-- A line stays what it is when the stream goes on. -/
theorem line?_append (h : line? talkers bytes = some (line, rest)) {more : List UInt8}
    (hmore : ¬ BreaksField (bytes ++ more.take 1)) :
    line? talkers (bytes ++ more) = some (line, rest ++ more) := by
  obtain ⟨b, r, hskip, hline⟩ := line?_inv h
  have hbody := suffix_skipLineEnds bytes
  rw [hskip] at hbody
  have hskip' : skipLineEnds (bytes ++ more) = b :: (r ++ more) := skipLineEnds_append hskip more
  have hparts : Sentence.body (b :: (r ++ more)) = Sentence.body (b :: r) ++ more :=
    body_append b r more
  rcases hline with ⟨s, size, hparse, hsize, rfl, rfl⟩ | ⟨⟨s, hparse⟩, rfl, hafter⟩
  · obtain ⟨hparse', hlt⟩ := Sentence.parseSize_append hparse hsize more
    rw [← hparts] at hparse'
    rw [line?_of_parse hskip' hparse', if_pos hsize, hparts,
      List.drop_append_of_le_length (Nat.le_of_lt hlt)]
  · have hmore' : ¬ BreaksField (Sentence.body (b :: r) ++ more.take 1) := fun hb =>
      hmore (hb.of_suffix (List.suffix_append_self_iff.mpr ((suffix_body (b :: r)).trans hbody)))
    obtain ⟨t, hparse'⟩ := parseSize_append_zero hparse hafter hmore'
    rw [← hparts] at hparse'
    rw [line?_of_parse hskip' hparse', if_neg (Nat.lt_irrefl 0), hparts,
      afterLine?_append hafter, Option.map_some]

/-- The first line does not depend on the line ends before it. -/
theorem line?_congr {xs ys : List UInt8} (h : skipLineEnds xs = skipLineEnds ys) :
    line? talkers xs = line? talkers ys := by
  rw [line?, line?, h]

/-- The lines of a stream do not depend on the line ends before them. -/
theorem lines_congr {xs ys : List UInt8} (h : skipLineEnds xs = skipLineEnds ys) :
    lines talkers xs = lines talkers ys := by
  have hline : line? talkers xs = line? talkers ys := line?_congr h
  cases hy : line? talkers ys with
  | none => rw [lines_of_none hy, lines_of_none (hline.trans hy), h]
  | some found => rw [lines_of_some hy, lines_of_some (hline.trans hy)]

/-- Line ends skipped before and after more has come are those skipped in one go. -/
theorem skipLineEnds_skipLineEnds_append (bytes more : List UInt8) :
    skipLineEnds (skipLineEnds bytes ++ more) = skipLineEnds (bytes ++ more) := by
  cases hskip : skipLineEnds bytes with
  | nil => rw [skipLineEnds_append_of_nil hskip, List.nil_append]
  | cons b r =>
      have hb : ¬ Ascii.isLineEnd b = true := by
        have := List.head_dropWhile_not Ascii.isLineEnd (l := bytes) (by
          unfold skipLineEnds at hskip
          simp [hskip])
        unfold skipLineEnds at hskip
        simpa [hskip] using this
      have hself : skipLineEnds (b :: r) = b :: r := List.dropWhile_cons_of_neg hb
      rw [skipLineEnds_append hskip, skipLineEnds_append hself]

theorem skipLineEnds_self (bytes : List UInt8) :
    skipLineEnds (skipLineEnds bytes) = skipLineEnds bytes := by
  simpa using skipLineEnds_skipLineEnds_append bytes []

/-- Lines stay what they are when the stream goes on, unless a field goes on behind a line feed that
has been read: of what comes then only the first byte matters. -/
theorem lines_append_of_take {more : List UInt8} (hmore : ¬ BreaksField (bytes ++ more.take 1)) :
    lines talkers (bytes ++ more) =
      ((lines talkers bytes).1 ++ (lines talkers ((lines talkers bytes).2 ++ more)).1,
        (lines talkers ((lines talkers bytes).2 ++ more)).2) := by
  fun_induction lines talkers bytes with
  | case1 bytes hnone =>
      exact lines_congr (skipLineEnds_skipLineEnds_append bytes more).symm
  | case2 bytes line rest hsome ih =>
      have hmore' : ¬ BreaksField (rest ++ more.take 1) := fun hb =>
        hmore (hb.of_suffix (List.suffix_append_self_iff.mpr (suffix_line? hsome)))
      rw [lines_of_some (line?_append hsome hmore), ih hmore']
      rfl

/-- **Lines stay what they are when the stream goes on**, and what had no end yet is read again with
what follows. -/
theorem lines_append {more : List UInt8} (hmore : ¬ BreaksField (bytes ++ more)) :
    lines talkers (bytes ++ more) =
      ((lines talkers bytes).1 ++ (lines talkers ((lines talkers bytes).2 ++ more)).1,
        (lines talkers ((lines talkers bytes).2 ++ more)).2) :=
  lines_append_of_take fun hb => hmore <| hb.trans
    ((List.prefix_append_right_inj bytes).mpr (List.take_prefix 1 more)).isInfix

/-! ### Reading on -/

/-- Between `bytes` and `rest` the lines `ls` have been read; line ends may have been skipped. -/
inductive Reads (talkers : Talkers) : List UInt8 → List Line → List UInt8 → Prop
  | here (bytes : List UInt8) : Reads talkers bytes [] bytes
  | skip (bytes : List UInt8) : Reads talkers bytes [] (skipLineEnds bytes)
  | line {bytes next rest : List UInt8} {line : Line} {ls : List Line}
      (first : line? talkers bytes = some (line, next))
      (more : Reads talkers next ls rest) : Reads talkers bytes (line :: ls) rest

namespace Reads

variable {ls more : List Line}

/-- The lines that have been read are the first ones, and the others come after them. -/
theorem lines_eq (h : Reads talkers bytes ls rest) :
    lines talkers bytes = (ls ++ (lines talkers rest).1, (lines talkers rest).2) := by
  induction h with
  | here bytes => rfl
  | skip bytes =>
      exact lines_congr (skipLineEnds_self bytes).symm
  | line first more ih =>
      rw [lines_of_some first, ih]
      rfl

/-- What has not been read is an end of the stream. -/
theorem suffix (h : Reads talkers bytes ls rest) : rest <:+ bytes := by
  induction h with
  | here bytes => exact List.suffix_rfl
  | skip bytes => exact suffix_skipLineEnds bytes
  | line first more ih => exact ih.trans (suffix_line? first)

/-- It is shorter, once a line has been read. -/
theorem length_lt (h : Reads talkers bytes ls rest) (hne : ls ≠ []) :
    rest.length < bytes.length := by
  cases h with
  | here bytes => exact absurd rfl hne
  | skip bytes => exact absurd rfl hne
  | line first more => exact Nat.lt_of_le_of_lt more.suffix.length_le (length_line? first)

/-- Line ends may be skipped first. -/
theorem of_skip (h : Reads talkers (skipLineEnds bytes) ls rest) : Reads talkers bytes ls rest := by
  have hself := skipLineEnds_self bytes
  generalize hskip : skipLineEnds bytes = skipped at h
  cases h with
  | here => exact hskip ▸ .skip bytes
  | skip => rw [← hskip, hself]; exact .skip bytes
  | line first more => exact .line ((line?_congr (hskip ▸ hself)).symm.trans first) more

/-- What has been read in two goes may be read in one. -/
theorem trans {middle : List UInt8} (h : Reads talkers bytes ls middle)
    (h' : Reads talkers middle more rest) : Reads talkers bytes (ls ++ more) rest := by
  induction h with
  | here bytes => exact h'
  | skip bytes => exact h'.of_skip
  | line first _ ih => exact .line first (ih h')

end Reads

end Ais.Intake
