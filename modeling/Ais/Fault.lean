import Ais.Text.Quoted

/-!
# Faults

Everything that can go wrong, by cause.  `Fault.message` is the sentence a reader of the log sees;
`Fault.inspect` is the same fault as a record.  A cause `other` carries a text its raiser chose.
-/

namespace Ais

open Text (quoted quotedBytes record wrapped)

/-- Why a sentence is not well formed.  Positions count bytes from the start of the sentence. -/
inductive Malformation where
  | shorterThanTalker
  | talker (found : List UInt8)
  | truncated
  | delimiter (want : UInt8) (pos : Nat) (found : UInt8)
  | digit (pos : Nat) (found : UInt8)
  | count (n : UInt8)
  | number (n total : UInt8)
  | openPayload
  | fill (n : UInt8)
  | checksumDigits
  | unterminated
  | tooLong (size limit : Nat)
  | other (text : String)
deriving DecidableEq

/-- A byte as it stands in a message: the character with its code, as it is. -/
def byteText (b : UInt8) : String := String.singleton (Char.ofNat b.toNat)

def Malformation.reason : Malformation → String
  | .shorterThanTalker        => "sentence shorter than its prefix"
  | .talker found             => "unsupported prefix " ++ quotedBytes found
  | .truncated                => "sentence truncated"
  | .delimiter want pos found => s!"expected '{byteText want}' at {pos}, found '{byteText found}'"
  | .digit pos found          => s!"expected digit at {pos}, found '{byteText found}'"
  | .count n                  => s!"fragment count {n}"
  | .number n total           => s!"fragment {n} of {total}"
  | .openPayload              => "no delimiter after payload"
  | .fill n                   => s!"{n} fill bits"
  | .checksumDigits           => "checksum is not hexadecimal"
  | .unterminated             => "sentence not terminated"
  | .tooLong size limit       => s!"sentence of {size} bytes exceeds {limit}"
  | .other text               => text

/-- Why sentences of a message were thrown away. -/
inductive SequenceBreak where
  | discarded (dropped slot : Nat) (number count : UInt8)
  | other (text : String)
deriving DecidableEq

def SequenceBreak.reason : SequenceBreak → String
  | .discarded dropped slot number count =>
    s!"{dropped} fragment(s) of message id {slot} discarded at fragment {number}/{count}"
  | .other text => text

/-- Why a length or a width is out of range. -/
inductive LengthFault where
  | noRoom (size remaining : Nat)
  | armour (size limit : Nat)
  | fill (n : UInt8)
  | width (bits limit : Nat)
  | packed
  | other (text : String)
deriving DecidableEq

def LengthFault.reason : LengthFault → String
  | .noRoom size remaining => s!"{size} bytes do not fit in {remaining} remaining"
  | .armour size limit     => s!"{size} armoured characters exceed {limit}"
  | .fill n                => s!"{n} fill bits"
  | .width bits limit      => s!"field width {bits} outside 1..={limit}"
  | .packed                => "payload exceeds packed capacity"
  | .other text            => text

/-- Why settings are refused. -/
inductive SettingFault where
  | capacity (n : Nat)
  | noBatches
  | poolLimit (limit needed : Nat)
  | other (text : String)
deriving DecidableEq

def SettingFault.reason : SettingFault → String
  | .capacity n              => s!"queue capacity {n} is not a power of two"
  | .noBatches               => "batches per call must be positive"
  | .poolLimit limit needed  =>
    s!"pool limit {limit} below {needed} batches needed to fill a queue"
  | .other text              => text

/-- What a part of the receiver reports when it cannot go on. -/
inductive Fault where
  | malformed (why : Malformation)
  | checksum (expected computed : UInt8)
  | sequence (why : SequenceBreak)
  | emptyPayload
  | outOfBounds (offset requested available : Nat)
  | unexpectedType (type : UInt8)
  | length (why : LengthFault)
  | queueClosed
  | poolExhausted (inUse : Nat)
  | settings (why : SettingFault)
  | io (text : String)
  | worker (text : String)
deriving DecidableEq

namespace Fault

/-- A byte in hexadecimal, two capital digits after `0x`. -/
def hexByte (b : UInt8) : String :=
  let digits := (Nat.toDigits 16 b.toNat).map Char.toUpper
  "0x" ++ String.ofList (List.replicate (2 - digits.length) '0' ++ digits)

/-- The fault in words. -/
def message : Fault → String
  | malformed why              => "Malformed sentence: " ++ why.reason
  | checksum expected computed =>
    s!"Checksum mismatch: expected {hexByte expected}, computed {hexByte computed}"
  | sequence why               => "Fragment sequence violation: " ++ why.reason
  | emptyPayload               => "Empty payload"
  | outOfBounds offset requested available =>
    s!"Read of {requested} bits at offset {offset} exceeds {available} available bits"
  | unexpectedType type        => s!"Unexpected message type {type}"
  | length why                 => "Invalid length: " ++ why.reason
  | queueClosed                => "Queue closed"
  | poolExhausted inUse        => s!"Buffer pool exhausted: {inUse} buffers in use"
  | settings why               => "Invalid configuration: " ++ why.reason
  | io text                    => "I/O error: " ++ text
  | worker text                => "Pipeline worker failed: " ++ text

/-- The kind of fault by name. -/
def kind : Fault → String
  | malformed _       => "MalformedSentence"
  | checksum _ _      => "ChecksumMismatch"
  | sequence _        => "FragmentSequence"
  | emptyPayload      => "EmptyPayload"
  | outOfBounds _ _ _ => "OutOfBounds"
  | unexpectedType _  => "UnexpectedType"
  | length _          => "InvalidLength"
  | queueClosed       => "QueueClosed"
  | poolExhausted _   => "PoolExhausted"
  | settings _        => "InvalidConfig"
  | io _              => "Io"
  | worker _          => "Worker"

/-- The fault as a record. -/
def inspect (f : Fault) : String :=
  match f with
  | malformed why              => wrapped f.kind (quoted why.reason)
  | checksum expected computed =>
    record f.kind [("expected", toString expected), ("computed", toString computed)]
  | sequence why               => wrapped f.kind (quoted why.reason)
  | emptyPayload               => f.kind
  | outOfBounds offset requested available =>
    record f.kind [("offset", toString offset), ("requested", toString requested),
      ("available", toString available)]
  | unexpectedType type        => wrapped f.kind (toString type)
  | length why                 => wrapped f.kind (quoted why.reason)
  | queueClosed                => f.kind
  | poolExhausted inUse        => wrapped f.kind (toString inUse)
  | settings why               => wrapped f.kind (quoted why.reason)
  | io text                    => wrapped f.kind (quoted text)
  | worker text                => wrapped f.kind (quoted text)

end Fault

end Ais
