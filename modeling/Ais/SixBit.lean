/-!
# Six-bit text

Text in a payload is written six bits to a letter: codes 0..31 are `@`, the capitals and
`[\]^_`; codes 32..63 are the ASCII characters of the same code.  `@` ends a text early.
-/

namespace Ais.SixBit

/-- The ASCII code of a letter. -/
def ascii (code : UInt8) : UInt8 := if code < 32 then code + 64 else code

/-- The letter of a code. -/
def letter (code : UInt8) : Char := Char.ofNat (ascii code).toNat

/-- The letters of all codes in order. -/
def alphabet : List UInt8 := (List.range 64).map fun c => ascii (UInt8.ofNat c)

/-- The text without the blanks at its end. -/
def trimmed (text : List Char) : List Char :=
  (text.reverse.dropWhile fun c => c == ' ').reverse

end Ais.SixBit
