import Ais.Limits

/-!
# Checksums

The checksum of a sentence is the exclusive or of its bytes up to the `*`.  `xor` says so byte by
byte.  `wide` reads most of the bytes four at a time: a head of bytes singly, as many as the
alignment of the storage asks for, then 32-bit words in the machine's byte order, and last the bytes
that fill no word.  Exclusive or does not care for order, so neither head nor byte order shows.
-/

namespace Ais.Checksum

/-- Every byte, one at a time. -/
def xor (bytes : List UInt8) : UInt8 := bytes.foldl (· ^^^ ·) 0

/-- How a machine lays the bytes of a word out in storage. -/
inductive ByteOrder where
  | little
  | big
deriving DecidableEq

/-- The word that four bytes of storage hold. -/
def ByteOrder.word (a b c d : UInt8) : ByteOrder → UInt32
  | little => a.toUInt32 ||| b.toUInt32 <<< 8 ||| c.toUInt32 <<< 16 ||| d.toUInt32 <<< 24
  | big    => d.toUInt32 ||| c.toUInt32 <<< 8 ||| b.toUInt32 <<< 16 ||| a.toUInt32 <<< 24

/-- The four bytes of storage that hold the word. -/
def ByteOrder.bytes (w : UInt32) : ByteOrder → List UInt8
  | little => [w.toUInt8, (w >>> 8).toUInt8, (w >>> 16).toUInt8, (w >>> 24).toUInt8]
  | big    => [(w >>> 24).toUInt8, (w >>> 16).toUInt8, (w >>> 8).toUInt8, w.toUInt8]

/-- The exclusive or of the whole words with `acc`, and the bytes that fill no word. -/
def words (order : ByteOrder) (acc : UInt32) : List UInt8 → UInt32 × List UInt8
  | a :: b :: c :: d :: rest => words order (acc ^^^ order.word a b c d) rest
  | tail => (acc, tail)

/-- The exclusive or of all bytes, the first `head` of them singly and the rest by words. -/
def wide (order : ByteOrder) (head : Nat) (bytes : List UInt8) : UInt8 :=
  let front := (bytes.take head).foldl (· ^^^ ·) 0
  let (word, tail) := words order 0 (bytes.drop head)
  tail.foldl (· ^^^ ·) (front ^^^ (order.bytes word).foldl (· ^^^ ·) 0)

/-- The checksum of bytes that start at a word boundary of a little-endian machine. -/
def compute (bytes : List UInt8) : UInt8 := wide .little 0 bytes

/-- The `*` and the two digits that close a sentence. -/
def suffixBytes : Nat := 3

/-- What the checksum of a stored sentence covers. -/
def body (sentence : List UInt8) : List UInt8 := sentence.take (sentence.length - suffixBytes)

end Ais.Checksum
