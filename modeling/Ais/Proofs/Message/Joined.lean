import Ais.Message

/-!
# Messages — what a joined message shows

`Message.Joins m ss` says that `m` is the message of the sentences `ss`: their texts on lines of
their own, their payloads one behind the other, the channel of the first and the fill count of the
last.  Nine sentences always fit (`ofSentences_ok`), and so does one (`ofSingle_ok`): a sentence has
at most 82 bytes, and its payload is some of them.
-/

namespace Ais

/-- The armoured characters are some of the sentence's bytes. -/
theorem Sentence.length_payloadBytes_le (s : Sentence) :
    s.payloadBytes.length ≤ Limits.sentenceBytes := by
  have htext := s.text.size_le
  unfold payloadBytes Span.of?
  split
  · simp only [Option.getD_some, List.length_take, List.length_drop]
    omega
  · exact Nat.zero_le _

namespace Message

/-- `m` is the message that the sentences `ss` are together. -/
structure Joins (m : Message) (ss : List Sentence) : Prop where
  sentences : m.sentences.bytes = [Ascii.lineFeed].intercalate (ss.map (·.text.bytes))
  payload   : m.payload.bytes = ss.flatMap (·.payloadBytes)
  channel   : m.channel = ss.head?.bind (·.channel)
  fill      : m.fill = (ss.getLast?.map (·.fill)).getD 0

/-- Texts on lines of their own: all but the first follow a line feed. -/
theorem intercalate_cons (x : List UInt8) (xs : List (List UInt8)) :
    [Ascii.lineFeed].intercalate (x :: xs) = x ++ xs.flatMap (Ascii.lineFeed :: ·) := by
  induction xs generalizing x with
  | nil => simp [List.intercalate]
  | cons y ys ih =>
      have := ih y
      simp_all [List.intercalate]

/-- One more sentence fits where its bytes do. -/
theorem appendSentence_ok (m : Message) (separator : List UInt8) (s : Sentence)
    (hs : m.sentences.bytes.length + separator.length + Limits.sentenceBytes ≤ Limits.messageBytes)
    (hp : m.payload.bytes.length + Limits.sentenceBytes ≤ Limits.armouredChars) :
    ∃ m', m.appendSentence separator s = (m', .ok ()) ∧
      m'.sentences.bytes = m.sentences.bytes ++ separator ++ s.text.bytes ∧
      m'.payload.bytes = m.payload.bytes ++ s.payloadBytes := by
  have htext := s.text.size_le
  have hpay := s.length_payloadBytes_le
  obtain ⟨t₁, h₁, e₁⟩ := m.sentences.append_ok separator (by omega)
  obtain ⟨t₂, h₂, e₂⟩ := t₁.append_ok s.text.bytes (by simp only [e₁, List.length_append]; omega)
  obtain ⟨t₃, h₃, e₃⟩ := m.payload.append_ok s.payloadBytes (by omega)
  refine ⟨{ m with sentences := t₂, payload := t₃ }, ?_, ?_, e₃⟩
  · simp only [appendSentence, h₁, h₂, h₃]
  · rw [e₂, e₁]

/-- Sentences that all follow others are appended, each on a line of its own. -/
theorem appendAll_ok (m : Message) (ss : List Sentence)
    (hs : m.sentences.bytes.length + ss.length * (Limits.sentenceBytes + 1) ≤ Limits.messageBytes)
    (hp : m.payload.bytes.length + ss.length * Limits.sentenceBytes ≤ Limits.armouredChars) :
    ∃ m', m.appendAll [Ascii.lineFeed] ss = (m', .ok ()) ∧
      m'.sentences.bytes =
        m.sentences.bytes ++ ss.flatMap (fun s => Ascii.lineFeed :: s.text.bytes) ∧
      m'.payload.bytes = m.payload.bytes ++ ss.flatMap (·.payloadBytes) := by
  induction ss generalizing m with
  | nil => exact ⟨m, rfl, by simp, by simp⟩
  | cons s ss ih =>
      have htext := s.text.size_le
      have hpay := s.length_payloadBytes_le
      simp only [List.length_cons, Nat.add_mul, Nat.one_mul] at hs hp
      obtain ⟨m₁, h₁, e₁, p₁⟩ := m.appendSentence_ok [Ascii.lineFeed] s
        (by simp only [List.length_singleton]; omega) (by omega)
      obtain ⟨m₂, h₂, e₂, p₂⟩ := ih m₁
        (by simp only [e₁, List.length_append, List.length_singleton]; omega)
        (by simp only [p₁, List.length_append]; omega)
      refine ⟨m₂, ?_, ?_, ?_⟩
      · rw [appendAll, h₁]
        exact h₂
      · rw [e₂, e₁]
        simp
      · rw [p₂, p₁]
        simp

/-- **Nine sentences make a message**, whatever the record held before. -/
theorem ofSentences_ok (m : Message) (ss : List Sentence)
    (h : ss.length ≤ Limits.sentencesPerMessage) :
    ∃ m', m.ofSentences ss = (m', .ok ()) ∧ m'.Joins ss := by
  cases ss with
  | nil => exact ⟨_, rfl, rfl, rfl, rfl, rfl⟩
  | cons s ss =>
      have htext := s.text.size_le
      have hpay := s.length_payloadBytes_le
      have h₈ : ss.length ≤ 8 := Nat.le_of_succ_le_succ h
      -- what the sentences need at most, in numbers
      simp only [Limits.sentenceBytes] at htext hpay
      obtain ⟨m₁, h₁, e₁, p₁⟩ :=
        { m with sentences := m.sentences.clear, payload := m.payload.clear }.appendSentence_ok []
          s (by simp only [FixedText.bytes_clear]; decide)
          (by simp only [FixedText.bytes_clear]; decide)
      simp only [FixedText.bytes_clear, List.nil_append] at e₁ p₁
      obtain ⟨m₂, h₂, e₂, p₂⟩ := m₁.appendAll_ok ss
        (by simp only [e₁, Limits.messageBytes, Limits.sentenceBytes,
              Limits.sentencesPerMessage]; omega)
        (by simp only [p₁, Limits.armouredChars, Limits.sentenceBytes,
              Limits.sentencesPerMessage]; omega)
      refine ⟨_, by rw [ofSentences, appendAll, h₁]; simp only [h₂]; rfl, ?_, ?_, rfl, rfl⟩
      · simp only [e₂, e₁, List.map_cons, intercalate_cons, List.flatMap_map]
      · simp only [p₂, p₁, List.flatMap_cons]

/-- One sentence makes a message, whatever the record held before. -/
theorem ofSingle_ok (m : Message) (s : Sentence) :
    ∃ m', m.ofSingle s = (m', .ok ()) ∧ m'.Joins [s] := by
  have htext := s.text.size_le
  have hpay := s.length_payloadBytes_le
  obtain ⟨t₁, h₁, e₁⟩ := m.sentences.assign_ok s.text.bytes (Nat.le_trans htext (by decide))
  obtain ⟨t₂, h₂, e₂⟩ := m.payload.assign_ok s.payloadBytes (Nat.le_trans hpay (by decide))
  refine ⟨⟨t₁, t₂, s.channel, s.fill⟩, by simp only [ofSingle, h₁, h₂], ?_, ?_, rfl, rfl⟩
  · simp [e₁, List.intercalate]
  · simp [e₂]

end Message

end Ais
