import Ais.Message

/-!
# Assembly — joining the sentences of a message

Each message id has a slot, in which the sentences of one message gather.  They must come in order:
a sentence that is not the next one of the open message throws the slot's sentences away, and is
kept only if it opens a message itself.  A sentence whose checksum does not hold touches no slot,
and one that is a whole message passes the table by.
-/

namespace Ais

/-- The open message of one id.  `held` are its sentences so far; behind them lies the storage of
sentences that were there before. -/
structure Slot where
  held    : List Sentence
  stale   : List Sentence
  /-- How many sentences the open message has. -/
  count   : UInt8
  size_eq : held.length + stale.length = Limits.sentencesPerMessage
deriving DecidableEq

namespace Slot

def empty : Slot := ⟨[], List.replicate Limits.sentencesPerMessage .empty, 0, by simp⟩

instance : Inhabited Slot := ⟨empty⟩

/-- How many sentences have gathered. -/
def index (slot : Slot) : Nat := slot.held.length

/-- No message is open. -/
def isIdle (slot : Slot) : Bool := slot.index == 0

/-- Throws the open message away. -/
def reset (slot : Slot) : Slot :=
  ⟨[], slot.held ++ slot.stale, 0, by simpa using slot.size_eq⟩

/-- Whether `s` is the next sentence: the first of any message, or the next of the open one. -/
def accepts (slot : Slot) (s : Sentence) : Bool :=
  s.number.toNat == slot.index + 1 && (slot.isIdle || s.count == slot.count)

/-- Keeps `s` after the others, if there is storage left. -/
def store? (slot : Slot) (s : Sentence) : Option Slot :=
  match h : slot.stale with
  | []        => none
  | _ :: rest =>
    some ⟨slot.held ++ [s], rest, if slot.isIdle then s.count else slot.count, by
      have := slot.size_eq
      simp only [h, List.length_cons] at this
      simp only [List.length_append, List.length_cons, List.length_nil]
      omega⟩

/-- Every sentence of the open message is there. -/
def isComplete (slot : Slot) : Bool := !slot.isIdle && slot.index == slot.count.toNat

end Slot

/-- What became of a sentence. -/
inductive Outcome where
  /-- The message is there. -/
  | complete
  /-- More sentences are needed. -/
  | pending
  /-- The checksum does not hold. -/
  | badChecksum
  /-- So many sentences were thrown away. -/
  | discarded (dropped : Nat)
deriving DecidableEq

namespace Outcome

def isComplete (o : Outcome) : Bool := o == complete

/-- The outcome as a record. -/
def inspect : Outcome → String
  | complete          => "Complete"
  | pending           => "Pending"
  | badChecksum       => "ChecksumFailed"
  | discarded dropped => Text.record "Discarded" [("dropped", toString dropped)]

end Outcome

namespace Slot

/-- One slot takes a sentence.  `m` is filled where the sentence completes its message. -/
def take (slot : Slot) (m : Message) (s : Sentence) : Slot × Message × Outcome :=
  let dropped := if slot.accepts s then 0 else slot.index
  let slot    := if slot.accepts s then slot else slot.reset
  if !slot.accepts s then (slot, m, .discarded (dropped + 1))
  else
    match slot.store? s with
    | none      => (slot, m, .discarded (dropped + 1))
    | some slot =>
      if !slot.isComplete then
        (slot, m, if dropped = 0 then .pending else .discarded dropped)
      else
        match m.ofSentences slot.held with
        | (m, .ok ())   => (slot.reset, m, .complete)
        | (m, .error _) => (slot.reset, m, .discarded slot.index)

end Slot

/-- The slots of a receiver, one for each digit. -/
structure Assembly where
  slots : Vector Slot Limits.slots
deriving DecidableEq

namespace Assembly

/-- Every slot idle. -/
def empty : Assembly := ⟨Vector.replicate _ .empty⟩

instance : Inhabited Assembly := ⟨empty⟩

def slot? (a : Assembly) (id : Nat) : Option Slot := a.slots[id]?

/-- How many messages are open. -/
def openSlots (a : Assembly) : Nat := (a.slots.toList.filter fun s => !s.isIdle).length

/-- Throws every open message away. -/
def clear (a : Assembly) : Assembly := ⟨a.slots.map Slot.reset⟩

/-- The table takes a sentence. -/
def process (a : Assembly) (m : Message) (s : Sentence) : Assembly × Message × Outcome :=
  if !s.isValid then (a, m, .badChecksum)
  else if s.isSingle then
    match m.ofSingle s with
    | (m, .ok ())   => (a, m, .complete)
    | (m, .error _) => (a, m, .discarded 1)
  else if h : s.slot < Limits.slots then
    let (slot, m, o) := a.slots[s.slot].take m s
    (⟨a.slots.set s.slot slot⟩, m, o)
  else (a, m, .discarded 1)

/-- As `process`, with sentences lost as a fault: whether the message is there. -/
def tryProcess (a : Assembly) (m : Message) (s : Sentence) :
    Assembly × Message × Except Fault Bool :=
  let (a, m, o) := a.process m s
  (a, m, match o with
    | .complete          => .ok true
    | .pending           => .ok false
    | .badChecksum       => .error (.checksum s.checksum s.computed)
    | .discarded dropped => .error (.sequence (.discarded dropped s.slot s.number s.count)))

end Assembly

end Ais
