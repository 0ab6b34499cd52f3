/-!
# Armour

Armoured text carries six bits in each character: `0`..`W` stand for 0..39 and the backquote..`w`
for 40..63.  Any other character stands for 0.
-/

namespace Ais.Armour

/-- The six bits of a character. -/
def value (c : UInt8) : UInt8 :=
  if 48 ≤ c ∧ c ≤ 87 then c - 48
  else if 96 ≤ c ∧ c ≤ 119 then c - 56
  else 0

/-- The character of the low six bits of `v`. -/
def char (v : UInt8) : UInt8 :=
  let v := v &&& 0x3F
  if v < 40 then 48 + v else 56 + v

/-- The values of all bytes in order. -/
def table : List UInt8 := (List.range 256).map fun c => value (UInt8.ofNat c)

end Ais.Armour
