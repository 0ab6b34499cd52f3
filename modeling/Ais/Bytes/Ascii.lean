/-!
# Bytes — the ASCII bytes of a sentence

The delimiters of a sentence by name, and the two digit classes its fields are written in.
-/

namespace Ais.Ascii

def lineFeed : UInt8 := 10
def carriageReturn : UInt8 := 13
def exclamation : UInt8 := 33
def dollar : UInt8 := 36
def asterisk : UInt8 := 42
def comma : UInt8 := 44

/-- A line terminator is made of these two bytes. -/
def isLineEnd (b : UInt8) : Bool := b == carriageReturn || b == lineFeed

/-- The byte that opens a sentence and is no part of it. -/
def isStart (b : UInt8) : Bool := b == exclamation || b == dollar

/-- The value of `0`..`9`. -/
def digit? (b : UInt8) : Option UInt8 :=
  if 48 ≤ b ∧ b ≤ 57 then some (b - 48) else none

/-- The value of a hexadecimal digit of either case. -/
def nibble? (b : UInt8) : Option UInt8 :=
  if 48 ≤ b ∧ b ≤ 57 then some (b - 48)
  else if 65 ≤ b ∧ b ≤ 70 then some (b - 55)
  else if 97 ≤ b ∧ b ≤ 102 then some (b - 87)
  else none

/-- The bytes of an ASCII text. -/
def ofString (s : String) : List UInt8 := s.toList.map Char.toUInt8

/-- A byte as the character with its code. -/
def char (b : UInt8) : Char := Char.ofNat b.toNat

end Ais.Ascii
