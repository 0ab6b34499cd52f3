/-!
# Tally — what has been counted

Eight counters of the traffic so far.  They are machine words and wrap around.
-/

namespace Ais

structure Tally where
  /-- Bytes of input taken. -/
  bytes            : UInt64
  /-- Sentences read. -/
  sentences        : UInt64
  /-- Lines skipped. -/
  malformed        : UInt64
  /-- Sentences whose checksum did not hold. -/
  checksumFailures : UInt64
  /-- Sentences lost to a broken sequence. -/
  discarded        : UInt64
  /-- Messages put together. -/
  messages         : UInt64
  /-- Payloads with bits. -/
  payloads         : UInt64
  /-- Messages without any. -/
  emptyPayloads    : UInt64
deriving DecidableEq

namespace Tally

def zero : Tally := ⟨0, 0, 0, 0, 0, 0, 0, 0⟩

def addBytes (t : Tally) (n : Nat) : Tally := { t with bytes := t.bytes + UInt64.ofNat n }

def addSentence (t : Tally) : Tally := { t with sentences := t.sentences + 1 }

def addMalformed (t : Tally) : Tally := { t with malformed := t.malformed + 1 }

def addChecksumFailure (t : Tally) : Tally :=
  { t with checksumFailures := t.checksumFailures + 1 }

def addDiscarded (t : Tally) (n : Nat) : Tally :=
  { t with discarded := t.discarded + UInt64.ofNat n }

def addMessage (t : Tally) : Tally := { t with messages := t.messages + 1 }

def addPayload (t : Tally) : Tally := { t with payloads := t.payloads + 1 }

def addEmptyPayload (t : Tally) : Tally := { t with emptyPayloads := t.emptyPayloads + 1 }

/-- Sentences that became part of no message. -/
def dropped (t : Tally) : UInt64 := t.checksumFailures + t.discarded

/-- The counts in words. -/
def text (t : Tally) : String :=
  s!"{t.bytes} bytes, {t.sentences} sentences ({t.malformed} malformed, " ++
  s!"{t.checksumFailures} bad checksum, {t.discarded} discarded), " ++
  s!"{t.messages} messages, {t.payloads} payloads ({t.emptyPayloads} empty)"

end Tally

end Ais
