import Ais.Proofs.Stage.Pieces

/-!
# Intake — every line is counted, and when once

A stream of whole lines is taken in to its end, and each line that is not blank is counted.  It is
counted once where a sentence stands alone on its line; but the reader asks for no more than a byte
behind a sentence, and takes a line feed for a channel.  So a line is counted once more for every
sentence in it that something stands behind (`Reading.overruns`), and two lines are counted as one
where a sentence goes on behind a line feed (`Reading.spans`).

* `line?_terminated`: what the first line of a stream can be.
* `length_readings`: how many lines are read in all.
* `lines_terminated`: where no sentence spans lines or overruns, they are those of the texts one by
  one.
* `ingest_counts_lines`: so are the sentences delivered, and what is counted.
-/

namespace Ais.Intake

/-- The texts on lines of their own. -/
def terminated (texts : List (List UInt8)) : List UInt8 := texts.flatMap (· ++ [Ascii.lineFeed])

/-- There is nothing in the text but line ends. -/
def isBlank (text : List UInt8) : Bool := text.all Ascii.isLineEnd

/-- A line read, and what stands behind it. -/
structure Reading where
  line   : Line
  behind : List UInt8

namespace Reading

/-- The sentence goes on behind a line feed. -/
def spans (r : Reading) : Bool := r.line.any fun s => s.text.bytes.contains Ascii.lineFeed

/-- Something stands behind the sentence before the line feed. -/
def overruns (r : Reading) : Bool :=
  r.line.isSome && !isBlank (r.behind.takeWhile (· != Ascii.lineFeed))

/-- The line holds this sentence and no more, or it is skipped. -/
def isAlone (r : Reading) : Bool := !r.spans && !r.overruns

theorem isAlone_iff {r : Reading} : r.isAlone = true ↔ r.spans = false ∧ r.overruns = false := by
  simp [isAlone]

end Reading

variable {talkers : Talkers} {bytes rest : List UInt8} {line : Line}

/-- The lines that have their end, each with what stands behind it. -/
def readings (talkers : Talkers) (bytes : List UInt8) : List Reading :=
  match _first : line? talkers bytes with
  | none              => []
  | some (line, rest) => ⟨line, rest⟩ :: readings talkers rest
termination_by bytes.length
decreasing_by exact length_line? _first

theorem readings_of_none (h : line? talkers bytes = none) : readings talkers bytes = [] := by
  rw [readings]
  split
  · rfl
  · rename_i hsome
    rw [h] at hsome
    cases hsome

theorem readings_of_some (h : line? talkers bytes = some (line, rest)) :
    readings talkers bytes = ⟨line, rest⟩ :: readings talkers rest := by
  rw [readings]
  split
  · rename_i hnone
    rw [h] at hnone
    cases hnone
  · rename_i hsome
    rw [h] at hsome
    cases hsome
    rfl

theorem readings_congr {xs ys : List UInt8} (h : skipLineEnds xs = skipLineEnds ys) :
    readings talkers xs = readings talkers ys := by
  have hline : line? talkers xs = line? talkers ys := line?_congr h
  cases hy : line? talkers ys with
  | none => rw [readings_of_none hy, readings_of_none (hline.trans hy)]
  | some found => rw [readings_of_some hy, readings_of_some (hline.trans hy)]

/-- The readings are the lines. -/
theorem map_line_readings (talkers : Talkers) (bytes : List UInt8) :
    (readings talkers bytes).map Reading.line = (lines talkers bytes).1 := by
  fun_induction lines talkers bytes with
  | case1 bytes hnone => rw [readings_of_none hnone, List.map_nil]
  | case2 bytes line rest hsome ih => rw [readings_of_some hsome, List.map_cons, ih]

/-! ### The first line of a stream -/

/-- What a text says on a line of its own: nothing, if it is blank. -/
def verdict (talkers : Talkers) (text : List UInt8) : Option Line :=
  (line? talkers (text ++ [Ascii.lineFeed])).map Prod.fst

/-- Of a text `t` with the texts `after` behind it the first line is read, and these texts are left. -/
inductive Begins (talkers : Talkers) (t : List UInt8) (after : List (List UInt8)) :
    Line → List (List UInt8) → Prop
  | skipped (alone : verdict talkers t = some none) : Begins talkers t after none after
  | read {s : Sentence} {behind : List UInt8} (alone : verdict talkers t = some (some s))
      (inside : Ascii.lineFeed ∉ s.text.bytes) (ends : behind <:+ t) :
      Begins talkers t after (some s) (behind :: after)
  | spanned {s : Sentence} {u behind : List UInt8} {later : List (List UInt8)}
      (next : after = u :: later) (blank : isBlank u = false)
      (outside : Ascii.lineFeed ∈ s.text.bytes) (ends : behind <:+ u) :
      Begins talkers t after (some s) (behind :: later)

@[simp] theorem terminated_nil : terminated [] = [] := rfl

theorem terminated_cons (t : List UInt8) (texts : List (List UInt8)) :
    terminated (t :: texts) = t ++ Ascii.lineFeed :: terminated texts := by
  simp [terminated]

theorem isBlank_iff {text : List UInt8} : isBlank text = true ↔ skipLineEnds text = [] := by
  rw [isBlank, List.all_eq_true, skipLineEnds, List.dropWhile_eq_nil_iff]

/-- Blank lines are skipped. -/
theorem skipLineEnds_blank {t : List UInt8} (h : isBlank t = true) (more : List UInt8) :
    skipLineEnds (t ++ Ascii.lineFeed :: more) = skipLineEnds more :=
  skipLineEnds_append_of_nil (isBlank_iff.mp h) _

/-- A text that holds no line feed ends at the first one, or begins what does. -/
theorem split_lineFeed {xs own more : List UInt8} (hxs : Ascii.lineFeed ∉ xs)
    (h : xs ++ rest = own ++ Ascii.lineFeed :: more) :
    ∃ behind, own = xs ++ behind ∧ rest = behind ++ Ascii.lineFeed :: more := by
  rcases List.append_eq_append_iff.mp h with ⟨behind, hown, hrest⟩ | ⟨front, hown, hmore⟩
  · exact ⟨behind, hown, hrest⟩
  · cases front with
    | nil => exact ⟨[], by simpa using hown.symm, hmore.symm⟩
    | cons b front =>
        obtain ⟨rfl, -⟩ := List.cons.inj hmore
        exact absurd (hown ▸ List.mem_append_right own List.mem_cons_self) hxs

/-- What is read from a line is read from it whatever stands behind it, if it ends there. -/
theorem parseSize_alone {f : Form} (hf : f.Valid talkers) (behind more : List UInt8)
    {s : Sentence} {size : Nat}
    (hparse : Sentence.empty.parseSize talkers (f.text ++ behind ++ Ascii.lineFeed :: more) =
      (s, size)) :
    Sentence.empty.parseSize talkers (f.text ++ behind ++ [Ascii.lineFeed]) = (s, size) := by
  have hread : Header.read talkers (f.text ++ behind ++ [Ascii.lineFeed]) = .ok f.header :=
    Header.read_eq_ok_iff.mpr ⟨f, hf, rfl, behind ++ [Ascii.lineFeed], by simp, by simp⟩
  rcases halone : Sentence.empty.parseSize talkers (f.text ++ behind ++ [Ascii.lineFeed]) with
    ⟨s', size'⟩
  rcases Sentence.parseSize_inv halone with ⟨-, -, -, hpos, -⟩ | ⟨why, herror, -⟩
  · have hlong := (Sentence.parseSize_append halone hpos more).1
    rw [List.append_assoc, List.singleton_append, hparse] at hlong
    exact hlong.symm
  · rw [hread] at herror
    cases herror

/-- A sentence at the start of a line ends there, or its channel is the line feed and it ends behind. -/
theorem parseSize_line {own more : List UInt8} (hown : Ascii.lineFeed ∉ own) {s : Sentence}
    {size : Nat} (hsize : 0 < size)
    (hparse : Sentence.empty.parseSize talkers (own ++ Ascii.lineFeed :: more) = (s, size)) :
    (Ascii.lineFeed ∉ s.text.bytes ∧
      Sentence.empty.parseSize talkers (own ++ [Ascii.lineFeed]) = (s, size) ∧
      ∃ behind, behind <:+ own ∧
        (own ++ Ascii.lineFeed :: more).drop size = behind ++ Ascii.lineFeed :: more) ∨
    (Ascii.lineFeed ∈ s.text.bytes ∧
      ∃ xs, Ascii.lineFeed ∉ xs ∧ isBlank xs = false ∧
        more = xs ++ (own ++ Ascii.lineFeed :: more).drop size) := by
  obtain ⟨header, hread, rfl, -, hshown⟩ := (Sentence.parseSize_inv hparse).resolve_right
    (fun ⟨_, _, hzero⟩ => absurd hzero (Nat.ne_of_gt hsize))
  obtain ⟨f, hf, rfl, rest, -, hline⟩ := Header.read_eq_ok_iff.mp hread
  have htext : s.text.bytes = f.text :=
    (congrArg Prod.snd hshown).trans (by rw [hline]; exact List.take_left)
  have hdrop : (own ++ Ascii.lineFeed :: more).drop f.header.size = rest := by
    rw [hline]
    exact List.drop_left
  rw [htext, hdrop]
  by_cases hmem : Ascii.lineFeed ∈ f.text
  · have hfeed : Ascii.isLineEnd Ascii.lineFeed = true := rfl
    obtain ⟨hbefore, hbehind⟩ := hf.not_mem hfeed
    have hchannel := f.text_channel
    rw [hf.channel_of_mem hfeed hmem] at hchannel
    have hparts : f.numbering ++ [Ascii.comma] ++
        Ascii.lineFeed :: (Ascii.comma :: f.closing ++ rest) = own ++ Ascii.lineFeed :: more := by
      rw [hline, hchannel]
      simp
    obtain ⟨front, hfront, hmore⟩ := split_lineFeed hbefore hparts
    cases front with
    | nil =>
        cases hmore
        exact .inr ⟨hmem, Ascii.comma :: f.closing, hbehind, rfl, rfl⟩
    | cons b front =>
        obtain ⟨rfl, -⟩ := List.cons.inj hmore
        exact absurd (hfront ▸ List.mem_append_right _ List.mem_cons_self) hown
  · obtain ⟨behind, rfl, hrest⟩ := split_lineFeed hmem hline.symm
    exact .inl ⟨hmem, parseSize_alone hf behind more hparse, behind, List.suffix_append _ _, hrest⟩

/-- **The first line of a stream** of whole lines is a sentence on its line, or one that goes on
behind the line feed, or it is skipped. -/
theorem line?_terminated (talkers : Talkers) {t : List UInt8} (ht : Ascii.lineFeed ∉ t)
    (hblank : isBlank t = false) (after : List (List UInt8)) :
    ∃ line texts, line? talkers (terminated (t :: after)) = some (line, terminated texts) ∧
      Begins talkers t after line texts := by
  obtain ⟨b, r, hskip⟩ : ∃ b r, skipLineEnds t = b :: r := by
    cases hskip : skipLineEnds t with
    | nil =>
        rw [isBlank_iff.mpr hskip] at hblank
        cases hblank
    | cons b r => exact ⟨b, r, rfl⟩
  -- the line without its start delimiter
  generalize hbody : Sentence.body (b :: r) = own
  have hsuffix : own <:+ t := hbody ▸ (suffix_body _).trans (hskip ▸ suffix_skipLineEnds t)
  have hown : Ascii.lineFeed ∉ own := fun h => ht (hsuffix.subset h)
  have hline (more : List UInt8) {s : Sentence} {size : Nat}
      (hparse : Sentence.empty.parseSize talkers (own ++ Ascii.lineFeed :: more) = (s, size)) :
      line? talkers (t ++ Ascii.lineFeed :: more) =
        if 0 < size then some (some s, (own ++ Ascii.lineFeed :: more).drop size)
        else some (none, more) := by
    have hlong : skipLineEnds (t ++ Ascii.lineFeed :: more) = b :: (r ++ Ascii.lineFeed :: more) :=
      skipLineEnds_append hskip _
    have hparts : Sentence.body (b :: (r ++ Ascii.lineFeed :: more)) =
        own ++ Ascii.lineFeed :: more := hbody ▸ body_append b r _
    have hnone : afterLine? own = none := by
      cases h : afterLine? own with
      | none => rfl
      | some rest => exact absurd (lineFeed_mem h) hown
    rw [← hparts] at hparse
    rw [line?_of_parse hlong hparse, hparts, afterLine?_lineFeed hnone]
    rfl
  rw [terminated_cons]
  rcases hparse : Sentence.empty.parseSize talkers (own ++ Ascii.lineFeed :: terminated after) with
    ⟨s, size⟩
  rw [hline _ hparse]
  by_cases hsize : 0 < size
  · rw [if_pos hsize]
    rcases parseSize_line hown hsize hparse with
      ⟨hinside, halone, behind, hends, hdrop⟩ | ⟨houtside, xs, hxs, hsays, hmore⟩
    · refine ⟨some s, behind :: after, by rw [hdrop, terminated_cons], ?_⟩
      refine .read ?_ hinside (hends.trans hsuffix)
      rw [verdict, hline [] halone, if_pos hsize]
      rfl
    · cases after with
      | nil =>
          -- nothing stands behind the line, but the text of a line does
          obtain ⟨rfl, -⟩ := List.append_eq_nil_iff.mp hmore.symm
          cases hsays
      | cons u later =>
          rw [terminated_cons] at hmore ⊢
          obtain ⟨behind, rfl, hrest⟩ := split_lineFeed hxs hmore.symm
          have hblank : isBlank (xs ++ behind) = false := by
            rw [isBlank, List.all_append, show xs.all Ascii.isLineEnd = false from hsays]
            rfl
          exact ⟨some s, behind :: later, by rw [hrest, terminated_cons],
            .spanned rfl hblank houtside (List.suffix_append _ _)⟩
  · rw [if_neg hsize]
    obtain rfl := Nat.eq_zero_of_not_pos hsize
    refine ⟨none, after, rfl, .skipped ?_⟩
    rcases halone : Sentence.empty.parseSize talkers (own ++ [Ascii.lineFeed]) with ⟨s', size'⟩
    have hsize' : ¬ 0 < size' := fun hpos => by
      have hlong := (Sentence.parseSize_append halone hpos (terminated after)).1
      rw [List.append_assoc, List.singleton_append, hparse] at hlong
      cases hlong
      exact hsize hpos
    rw [verdict, hline [] halone, if_neg hsize']
    rfl

/-! ### Line after line -/

theorem Begins.no_lineFeed {t : List UInt8} {after texts : List (List UInt8)}
    (h : Begins talkers t after line texts) (hall : ∀ u ∈ t :: after, Ascii.lineFeed ∉ u) :
    ∀ u ∈ texts, Ascii.lineFeed ∉ u := by
  obtain ⟨ht, hafter⟩ := List.forall_mem_cons.mp hall
  cases h with
  | skipped alone => exact hafter
  | read alone inside ends =>
      exact List.forall_mem_cons.mpr ⟨fun hmem => ht (ends.subset hmem), hafter⟩
  | spanned next blank outside ends =>
      obtain ⟨hu, hlater⟩ := List.forall_mem_cons.mp (next ▸ hafter)
      exact List.forall_mem_cons.mpr ⟨fun hmem => hu (ends.subset hmem), hlater⟩

/-- **Streams of whole lines** are read by skipping a blank line, or by reading the first. -/
@[elab_as_elim]
theorem terminated_induction (talkers : Talkers) {P : List (List UInt8) → Prop} (nil : P [])
    (blank : ∀ {t : List UInt8} {after : List (List UInt8)}, isBlank t = true → P after →
      P (t :: after))
    (begins : ∀ {t : List UInt8} {after : List (List UInt8)} {line : Line}
      {texts : List (List UInt8)}, (∀ u ∈ texts, Ascii.lineFeed ∉ u) → isBlank t = false →
      line? talkers (terminated (t :: after)) = some (line, terminated texts) →
      Begins talkers t after line texts → P texts → P (t :: after))
    (texts : List (List UInt8)) (htexts : ∀ t ∈ texts, Ascii.lineFeed ∉ t) : P texts := by
  induction hlength : (terminated texts).length using Nat.strongRecOn generalizing texts with
  | ind n ih =>
      cases texts with
      | nil => exact nil
      | cons t after =>
          cases hblank : isBlank t with
          | true =>
              refine blank hblank (ih _ ?_ after (List.forall_mem_cons.mp htexts).2 rfl)
              rw [← hlength, terminated_cons, List.length_append, List.length_cons]
              omega
          | false =>
              obtain ⟨line, texts, hline, hbegins⟩ :=
                line?_terminated talkers (htexts t List.mem_cons_self) hblank after
              have hno := hbegins.no_lineFeed htexts
              exact begins hno hblank hline hbegins
                (ih _ (hlength ▸ length_line? hline) texts hno rfl)

/-- Nothing is left of whole lines. -/
theorem lines_terminated_rest {texts : List (List UInt8)} (htexts : ∀ t ∈ texts, Ascii.lineFeed ∉ t) :
    (lines talkers (terminated texts)).2 = [] := by
  refine terminated_induction talkers ?_ ?_ ?_ texts htexts
  · rw [terminated_nil, lines_nil]
  · intro t after hblank ih
    rw [terminated_cons, lines_congr (skipLineEnds_blank hblank _), ih]
  · intro t after line texts _ _ hline _ ih
    rw [lines_of_some hline, ih]

theorem overruns_terminated (s : Sentence) {behind : List UInt8} (h : Ascii.lineFeed ∉ behind)
    (texts : List (List UInt8)) :
    (⟨some s, terminated (behind :: texts)⟩ : Reading).overruns = !isBlank behind := by
  have hbehind : ∀ b ∈ behind, (b != Ascii.lineFeed) = true := fun b hb => by
    simpa using fun e : b = Ascii.lineFeed => h (e ▸ hb)
  rw [Reading.overruns, terminated_cons, List.takeWhile_append_of_pos hbehind,
    List.takeWhile_cons_of_neg (by simp), List.append_nil]
  rfl

/-- **As many lines are read** as are not blank, one more for each that overruns, and one less for
each that spans two. -/
theorem length_readings {texts : List (List UInt8)} (htexts : ∀ t ∈ texts, Ascii.lineFeed ∉ t) :
    let rs := readings talkers (terminated texts)
    rs.length + rs.countP Reading.spans =
      texts.countP (!isBlank ·) + rs.countP Reading.overruns := by
  refine terminated_induction talkers ?_ ?_ ?_ texts htexts
  · rw [terminated_nil, readings_of_none (line?_of_nil rfl)]
    rfl
  · intro t after hblank ih
    rw [terminated_cons, readings_congr (skipLineEnds_blank hblank _), List.countP_cons, hblank]
    exact ih
  · intro t after line texts hno hblank hline hbegins ih
    simp only [readings_of_some hline, List.length_cons, List.countP_cons, hblank, Bool.not_false,
      if_true]
    cases hbegins with
    | skipped alone =>
        have hspans : (⟨none, terminated after⟩ : Reading).spans = false := rfl
        have hoverruns : (⟨none, terminated after⟩ : Reading).overruns = false := rfl
        simp only [hspans, hoverruns, Bool.false_eq_true, if_false]
        omega
    | @read s behind alone inside ends =>
        have hspans : (⟨some s, terminated (behind :: after)⟩ : Reading).spans = false := by
          simpa [Reading.spans] using inside
        have hoverruns := overruns_terminated s (hno behind List.mem_cons_self) after
        simp only [hspans, hoverruns, Bool.false_eq_true, if_false, List.countP_cons] at ih ⊢
        omega
    | @spanned s u behind later next blank outside ends =>
        subst next
        have hspans : (⟨some s, terminated (behind :: later)⟩ : Reading).spans = true := by
          simpa [Reading.spans] using outside
        have hoverruns := overruns_terminated s (hno behind List.mem_cons_self) later
        simp only [hspans, hoverruns, blank, Bool.not_false, if_true, List.countP_cons] at ih ⊢
        omega

/-! ### Lines that stand alone -/

theorem isSome_verdict {t : List UInt8} (ht : Ascii.lineFeed ∉ t) :
    (verdict talkers t).isSome = !isBlank t := by
  have halone : terminated [t] = t ++ [Ascii.lineFeed] := terminated_cons t []
  cases hblank : isBlank t with
  | true => rw [verdict, line?_of_nil (skipLineEnds_blank hblank [])]; rfl
  | false =>
      obtain ⟨line, texts, hline, -⟩ := line?_terminated talkers ht hblank []
      rw [verdict, ← halone, hline]
      rfl

/-- Each text that is not blank says one thing. -/
theorem length_verdicts {texts : List (List UInt8)} (htexts : ∀ t ∈ texts, Ascii.lineFeed ∉ t) :
    (texts.filterMap (verdict talkers)).length = texts.countP (!isBlank ·) := by
  rw [List.length_filterMap_eq_countP]
  exact List.countP_congr fun t ht => by rw [isSome_verdict (htexts t ht)]

/-- **The lines are those of the texts one by one**, if each sentence stands alone on its line. -/
theorem lines_terminated {texts : List (List UInt8)} (htexts : ∀ t ∈ texts, Ascii.lineFeed ∉ t)
    (halone : ∀ r ∈ readings talkers (terminated texts), r.isAlone = true) :
    (lines talkers (terminated texts)).1 = texts.filterMap (verdict talkers) := by
  revert halone
  refine terminated_induction talkers ?_ ?_ ?_ texts htexts
  · intro _
    rw [terminated_nil, lines_nil]
    rfl
  · intro t after hblank ih
    rw [terminated_cons, readings_congr (skipLineEnds_blank hblank _),
      lines_congr (skipLineEnds_blank hblank _), List.filterMap_cons_none]
    · exact ih
    · rw [verdict, line?_of_nil (skipLineEnds_blank hblank [])]
      rfl
  · intro t after line texts hno hblank hline hbegins ih
    rw [readings_of_some hline, lines_of_some hline, List.forall_mem_cons]
    rintro ⟨hfirst, hothers⟩
    rw [ih hothers]
    cases hbegins with
    | skipped alone => rw [List.filterMap_cons_some alone]
    | @read s behind alone inside ends =>
        have hbehind := hno behind List.mem_cons_self
        -- behind the sentence there are line ends only, and so nothing is said
        have hsilent : verdict talkers behind = none := by
          rw [← Option.not_isSome_iff_eq_none, isSome_verdict hbehind,
            ← overruns_terminated s hbehind after, (Reading.isAlone_iff.mp hfirst).2]
          exact Bool.false_ne_true
        rw [List.filterMap_cons_some alone, List.filterMap_cons_none hsilent]
    | spanned next blank outside ends =>
        have hinside := (Reading.isAlone_iff.mp hfirst).1
        simp [Reading.spans, outside] at hinside

/-! ### What is counted -/

theorem counted_addLines (t : Tally) (ls : List Line) :
    (t.addLines ls).sentences + (t.addLines ls).malformed =
      t.sentences + t.malformed + .ofNat ls.length := by
  induction ls generalizing t with
  | nil => exact (UInt64.add_zero _).symm
  | cons line ls ih =>
      refine (ih (t.addLine line)).trans ?_
      rw [List.length_cons, UInt64.ofNat_add]
      cases line with
      | none => simp only [Tally.addLine, Tally.addMalformed]; ac_rfl
      | some s => simp only [Tally.addLine, Tally.addSentence]; ac_rfl

variable {Q : Type} {n : Nat} [Sink Q (Buffer Sentence n)] {isOpen : Q → Prop}
  {held : Q → List (Buffer Sentence n)}

/-- **Whole lines are taken in to the last**, and each that is not blank is counted once; but a line
is counted once more for each sentence in it with something behind, and two lines are counted as one
where a sentence goes on behind the line feed.  Where each sentence stands alone on its line, each
line that is not blank yields one sentence or is skipped. -/
theorem ingest_counts_lines (keeps : Sink.Keeps isOpen held)
    (endless : ∀ {q}, isOpen q → Sink.isFull q = false) (hn : 0 < n) {i : Intake Q n}
    (hopen : isOpen i.sink) (hready : i.pool.Ready) {texts : List (List UInt8)}
    (htexts : ∀ t ∈ texts, Ascii.lineFeed ∉ t) :
    ∃ j, i.ingest (terminated texts) = (j, .ok (terminated texts).length) ∧
      let rs := readings i.talkers (terminated texts)
      let ls := texts.filterMap (verdict i.talkers)
      j.tally.sentences + j.tally.malformed + .ofNat (rs.countP Reading.spans) =
        i.tally.sentences + i.tally.malformed +
          .ofNat (texts.countP (!isBlank ·) + rs.countP Reading.overruns) ∧
      ls.length = texts.countP (!isBlank ·) ∧
      ((∀ r ∈ rs, r.isAlone = true) →
        delivered held j.sink = delivered held i.sink ++ (sentences ls).map (·.shown) ∧
        j.tally = (i.tally.addLines ls).addBytes (terminated texts).length) := by
  obtain ⟨j, taken, hingest, htakes, hlength, -, -⟩ :=
    ingest_lines keeps endless hn hopen hready (terminated texts)
  rw [lines_terminated_rest htexts, List.length_nil, Nat.add_zero] at hlength
  subst hlength
  refine ⟨_, hingest, ?_, length_verdicts htexts, fun halone => ?_⟩
  · have hcounted := counted_addLines i.tally (lines i.talkers (terminated texts)).1
    rw [← htakes.tally, ← map_line_readings, List.length_map] at hcounted
    simp only [Tally.addBytes]
    rw [hcounted, UInt64.add_assoc, ← UInt64.ofNat_add, length_readings htexts]
  · have hdelivered := htakes.delivered
    have htally := htakes.tally
    rw [lines_terminated htexts halone] at hdelivered htally
    exact ⟨hdelivered, congrArg (Tally.addBytes · _) htally⟩

/-- A sentence, a blank line, and one that is skipped. -/
theorem ingest_counts_three :
    let i : Intake (Ledger (Buffer Sentence 1)) 1 := ⟨.any, .empty none, ⟨[]⟩, .zero⟩
    let texts := ["!AIVDM,1,1,,A,w0h,2*0B\r", "\r", "garbage"].map Ascii.ofString
    let ls := texts.filterMap (verdict i.talkers)
    (∀ t ∈ texts, Ascii.lineFeed ∉ t) ∧
      (∀ r ∈ readings i.talkers (terminated texts), r.isAlone = true) ∧ ls.length = 2 ∧
      ∃ j, i.ingest (terminated texts) = (j, .ok 34) ∧
        j.tally.sentences + j.tally.malformed = 2 ∧
        delivered Ledger.entries j.sink = (sentences ls).map (·.shown) := by
  intro i texts ls
  have htexts : ∀ t ∈ texts, Ascii.lineFeed ∉ t := by decide +kernel
  have halone : ∀ r ∈ readings i.talkers (terminated texts), r.isAlone = true := by decide +kernel
  obtain ⟨j, hingest, -, hlength, hstand⟩ := ingest_counts_lines Ledger.keeps (fun _ => rfl)
    (by decide) (i := i) trivial Pool.ready_empty htexts
  obtain ⟨hdelivered, htally⟩ := hstand halone
  refine ⟨htexts, halone, hlength, j, hingest, ?_, hdelivered⟩
  rw [htally]
  decide +kernel

/-- A sentence with something behind it, two on one line, and one across two lines. -/
theorem ingest_miscounts_lines :
    let i : Intake (Ledger (Buffer Sentence 1)) 1 := ⟨.any, .empty none, ⟨[]⟩, .zero⟩
    let counted (texts : List String) :=
      let j := (i.ingest (terminated (texts.map Ascii.ofString))).1
      (j.tally.sentences, j.tally.malformed)
    counted ["!AIVDM,1,1,,A,w0h,2*0Bx\r"] = (1, 1) ∧
      counted ["!AIVDM,1,1,,A,w0h,2*0B!AIVDM,1,1,,A,w0h,2*0B\r"] = (2, 0) ∧
      counted ["!AIVDM,1,1,,", ",w,0*1A\r"] = (1, 0) := by
  decide +kernel

end Ais.Intake
