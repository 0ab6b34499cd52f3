/-!
# Limits

The sizes a receiver works within.  A sentence is at most 82 bytes without its start delimiter;
the count field is one digit, so a message has at most nine sentences; a fill count says how many
bits of the last armoured character are padding, so it is below six.  Everything else follows.
-/

namespace Ais.Limits

/-- The longest sentence, start delimiter and line terminator excluded. -/
def sentenceBytes : Nat := 82

/-- The most sentences in one message. -/
def sentencesPerMessage : Nat := 9

/-- The largest fill count. -/
def fillBits : Nat := 5

/-- The longest armoured text of a message: nine whole sentences' worth. -/
def armouredChars : Nat := sentencesPerMessage * sentenceBytes

/-- Nine sentences, each followed by a separator. -/
def messageBytes : Nat := sentencesPerMessage * (sentenceBytes + 1)

/-- The packed size of the longest payload, with one byte to spare. -/
def payloadBytes : Nat := armouredChars * 6 / 8 + 1

/-- One reassembly slot per digit. -/
def slots : Nat := 10

/-- Records in a batch. -/
def batchRecords : Nat := 512

/-- The longest unterminated tail that can still become a sentence: a start delimiter before it,
and the two bytes of a line terminator after it. -/
def tailBytes : Nat := sentenceBytes + 3

/-- The most bytes asked of a reader at once. -/
def readBytes : Nat := 64 * 1024

/-- The largest machine word; offsets saturate there. -/
def word : Nat := 0xFFFFFFFFFFFFFFFF

end Ais.Limits
