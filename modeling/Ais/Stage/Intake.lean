import Ais.Sentence.Header
import Ais.Stage
import Ais.Tally

/-!
# Stage — taking bytes in

Bytes become batches of sentences.  Each line is one sentence, after an optional start delimiter, or
is skipped as malformed; line ends in any number separate them.  A sentence is read as soon as its
end is certain, terminator or not, but a line that is no sentence can be skipped only when its line
feed is there: until then it is left for a later call, and so is everything once the sink is full.
-/

namespace Ais

/-- The line without its start delimiter. -/
def Sentence.body : List UInt8 → List UInt8
  | []     => []
  | b :: r => if Ascii.isStart b then r else b :: r

/-- What is left after a batch has been filled. -/
structure Filled (n : Nat) where
  batch : Batch Sentence n
  tally : Tally
  /-- The bytes not taken. -/
  rest  : List UInt8
  /-- Nothing can be read from the rest as it stands. -/
  done  : Bool

/-- What bytes go into: a pool of batches and the sink behind it. -/
structure Intake (Q : Type) (n : Nat) where
  talkers : Talkers
  pool    : Pool Sentence n
  sink    : Q
  tally   : Tally

namespace Intake

variable {Q : Type} {n : Nat}

/-- The bytes from the first line on: line ends are skipped. -/
def skipLineEnds (bytes : List UInt8) : List UInt8 := bytes.dropWhile Ascii.isLineEnd

/-- The bytes behind the first line feed. -/
def afterLine? : List UInt8 → Option (List UInt8)
  | []     => none
  | b :: r => if b = Ascii.lineFeed then some r else afterLine? r

theorem length_skipLineEnds_le (bytes : List UInt8) :
    (skipLineEnds bytes).length ≤ bytes.length :=
  (List.dropWhile_sublist _).length_le

theorem length_afterLine {bytes rest : List UInt8} (h : afterLine? bytes = some rest) :
    rest.length < bytes.length := by
  induction bytes with
  | nil => cases h
  | cons b r ih =>
    unfold afterLine? at h
    split at h
    · cases h; exact Nat.lt_succ_self _
    · exact Nat.lt_succ_of_lt (ih h)

theorem length_body_le (line : List UInt8) : (Sentence.body line).length ≤ line.length := by
  unfold Sentence.body
  split
  · exact Nat.le_refl _
  · split
    · exact Nat.le_succ _
    · exact Nat.le_refl _

/-- Reads lines into a batch until the batch is full, the bytes are used up, or the last line has no
end yet. -/
def fill (talkers : Talkers) (batch : Batch Sentence n) (tally : Tally) (bytes : List UInt8) :
    Filled n :=
  match _skipped : skipLineEnds bytes with
  | []        => ⟨batch, tally, [], true⟩
  | b :: rest =>
    let body := Sentence.body (b :: rest)
    match batch.claim? with
    | none                => ⟨batch, tally, b :: rest, false⟩
    | some (old, claimed) =>
      let (s, size) := old.parseSize talkers body
      let written := claimed.setBack s
      if 0 < size then fill talkers written tally.addSentence (body.drop size)
      else
        match _after : afterLine? body with
        | some next => fill talkers written.dropBack tally.addMalformed next
        | none      => ⟨written.dropBack, tally, b :: rest, true⟩
termination_by bytes.length
decreasing_by
  · have passed := length_skipLineEnds_le bytes
    have shorter := length_body_le (b :: rest)
    simp only [_skipped, List.length_cons, List.length_drop] at *
    omega
  · have passed := length_skipLineEnds_le bytes
    have shorter := length_body_le (b :: rest)
    have behind : next.length < (Sentence.body (b :: rest)).length := length_afterLine _after
    simp only [_skipped] at *
    omega

variable [Sink Q (Buffer Sentence n)]

/-- Fills batches and hands them over while there are bytes and the sink has room; what comes out is
the bytes not taken. -/
def batches (i : Intake Q n) (bytes : List UInt8) :
    Intake Q n × Except Halt (List UInt8) :=
  if bytes.isEmpty then (i, .ok bytes)
  else
    match Stage.ensureOpen i.sink with
    | .error stop => (i, .error stop)
    | .ok ()      =>
      if Sink.isFull i.sink then (i, .ok bytes)
      else
        match i.pool.acquire with
        | .error f      => (i, .error (.fault f))
        | .ok (b, pool) =>
          let filled := fill i.talkers b.batch i.tally bytes
          let b := { b with batch := filled.batch }
          let tally := filled.tally
          let (i, sent) : Intake Q n × Except Halt Unit :=
            if b.batch.isEmpty then ({ i with pool := pool.release b, tally }, .ok ())
            else
              let (sink, pool, sent) := Stage.handOver i.sink pool b
              ({ i with pool, sink, tally }, sent)
          match sent with
          | .error stop => (i, .error stop)
          | .ok ()      =>
            if filled.done then (i, .ok filled.rest)
            else if filled.rest.length < bytes.length then i.batches filled.rest
            else (i, .ok filled.rest)
termination_by bytes.length

/-- Takes bytes in, and says how many.  Those not taken are to be offered again. -/
def ingest (i : Intake Q n) (bytes : List UInt8) : Intake Q n × Except Halt Nat :=
  match i.batches bytes with
  | (i, .error stop) => (i, .error stop)
  | (i, .ok rest)    =>
    let taken := bytes.length - rest.length
    ({ i with tally := i.tally.addBytes taken }, .ok taken)

end Intake

end Ais
