import Ais.Stage.Intake

/-!
# Stage — whole streams

An intake takes what it has room for.  Whoever has more than that offers the rest again, and lets the
others work first where there is no room.  Whoever reads from a stream keeps the last line until its
end arrives.  An `Inlet` is anything bytes can be offered to in that way.  A last line that the stream
leaves without an end is given one.  Of a line that has grown too long to be a sentence before its end
came, what has come is dropped, and what comes next begins a new line.
-/

namespace Ais

class Inlet (σ : Type) where
  /-- Takes in what there is room for, and says how many bytes that was. -/
  offer     : σ → List UInt8 → σ × Except Halt Nat
  isFull    : σ → Bool
  isClosed  : σ → Bool
  /-- Lets the others work until there may be room. -/
  await     : σ → σ
  /-- Counts a line that was dropped. -/
  countLine : σ → σ

/-- What a read brings. -/
inductive Arrival where
  /-- Bytes; none at all where the stream is at its end. -/
  | bytes (chunk : List UInt8)
  /-- Nothing; reading can go on. -/
  | interrupted
  | failed (text : String)
deriving DecidableEq

namespace Inlet

variable {σ : Type} [Inlet σ]

/-- Once something has been taken, less is left. -/
theorem length_drop_lt {bytes : List UInt8} {taken : Nat} (hne : ¬bytes.isEmpty = true)
    (htaken : 0 < taken) : (bytes.drop taken).length < bytes.length := by
  have : 0 < bytes.length := List.length_pos_iff.mpr (by simpa using hne)
  rw [List.length_drop]
  omega

/-- Offers bytes until all that can be taken have been; what comes out is the rest.  While there is no
room the others are let work, but they are not waited for twice in a row for nothing. -/
def offerAll (s : σ) (bytes : List UInt8) (waited : Bool) : σ × Except Halt (List UInt8) :=
  if bytes.isEmpty then (s, .ok bytes)
  else if isClosed s then (s, .error (.fault .queueClosed))
  else
    match offer s bytes with
    | (s, .error stop) => (s, .error stop)
    | (s, .ok taken)   =>
      if isFull s then
        if 0 < taken then offerAll (await s) (bytes.drop taken) false
        else if waited then (s, .error .stalled)
        else offerAll (await s) bytes true
      else if taken = 0 then (s, .ok bytes)
      else offerAll s (bytes.drop taken) false
termination_by 2 * bytes.length + if waited then 0 else 1
decreasing_by
  · have := length_drop_lt ‹¬bytes.isEmpty = true› ‹0 < taken›
    simp only [if_false]
    omega
  · rw [if_neg ‹¬waited = true›]
    simp only [if_true]
    omega
  · have := length_drop_lt ‹¬bytes.isEmpty = true› (Nat.pos_of_ne_zero ‹¬taken = 0›)
    simp only [if_false]
    omega

/-- What is done once an offer has been answered. -/
theorem offerAll_of_offer {s t : σ} {bytes : List UInt8} {taken : Nat} (waited : Bool)
    (hne : ¬bytes.isEmpty = true) (hopen : ¬isClosed s = true)
    (h : offer s bytes = (t, .ok taken)) :
    offerAll s bytes waited =
      if isFull t then
        if 0 < taken then offerAll (await t) (bytes.drop taken) false
        else if waited then (t, .error .stalled)
        else offerAll (await t) bytes true
      else if taken = 0 then (t, .ok bytes)
      else offerAll t (bytes.drop taken) false := by
  rw [offerAll, if_neg hne, if_neg hopen, h]

/-- Takes in every line of the bytes, however long that takes, and says how many bytes that was. -/
def ingestAll (s : σ) (bytes : List UInt8) : σ × Except Halt Nat :=
  let (s, rest) := offerAll s bytes false
  (s, rest.map fun rest => bytes.length - rest.length)

/-- The end of the stream: the last line gets its end. -/
def closeLine (s : σ) (tail : List UInt8) : σ × Except Halt Nat :=
  if tail.isEmpty then (s, .ok 0) else ingestAll s (tail ++ [Ascii.lineFeed])

/-- Takes a stream in, read by read.  `tail` is what earlier reads left over. -/
def ingestFrom (s : σ) (tail : List UInt8) : List Arrival → σ × Except Halt Nat
  | []                   => closeLine s tail
  | .interrupted :: more => ingestFrom s tail more
  | .failed text :: _    => (s, .error (.fault (.io text)))
  | .bytes chunk :: more =>
    if chunk.isEmpty then closeLine s tail
    else
      match ingestAll s (tail ++ chunk) with
      | (s, .error stop) => (s, .error stop)
      | (s, .ok taken)   =>
        let rest := (tail ++ chunk).drop taken
        if Limits.tailBytes < rest.length then
          let (s, total) := ingestFrom (countLine s) [] more
          (s, total.map (taken + rest.length + ·))
        else
          let (s, total) := ingestFrom s rest more
          (s, total.map (taken + ·))

/-- Takes a stream in to its end, and says how many bytes that was. -/
def ingestReader (s : σ) (arrivals : List Arrival) : σ × Except Halt Nat :=
  ingestFrom s [] arrivals

end Inlet

/-- Nobody else works on a bare intake. -/
instance {Q : Type} {n : Nat} [Sink Q (Buffer Sentence n)] : Inlet (Intake Q n) where
  offer     := Intake.ingest
  isFull    i := Sink.isFull i.sink
  isClosed  i := Sink.isClosed i.sink
  await     := id
  countLine i := { i with tally := i.tally.addMalformed }

end Ais
