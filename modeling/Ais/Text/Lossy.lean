/-!
# Text — bytes read as text, with replacement

UTF-8 read without ever failing: every maximal piece that starts a character and is not continued
as it must be becomes one U+FFFD, and so does every byte that can start none.  A piece ends before
the byte that breaks it, which is then read afresh.
-/

namespace Ais.Text

/-- What stands for bytes that spell no character. -/
def replacement : Char := '\uFFFD'

/-- A character begun: how many bytes it still needs, the bits read so far, and the range its next
byte must lie in. -/
structure Begun where
  need : Nat
  bits : Nat
  low  : UInt8
  high : UInt8

/-- What a byte means where a character may start. -/
inductive Opening where
  | whole (c : Char)
  | begun (p : Begun)
  | stray

/-- The ranges of the second byte rule out overlong forms, surrogates and codes past U+10FFFF. -/
def opening (b : UInt8) : Opening :=
  let n := b.toNat
  if n < 0x80 then .whole (Char.ofNat n)
  else if n < 0xC2 then .stray
  else if n < 0xE0 then .begun ⟨1, n % 0x20, 0x80, 0xBF⟩
  else if n = 0xE0 then .begun ⟨2, 0, 0xA0, 0xBF⟩
  else if n = 0xED then .begun ⟨2, 0xD, 0x80, 0x9F⟩
  else if n < 0xF0 then .begun ⟨2, n % 0x10, 0x80, 0xBF⟩
  else if n = 0xF0 then .begun ⟨3, 0, 0x90, 0xBF⟩
  else if n < 0xF4 then .begun ⟨3, n % 0x08, 0x80, 0xBF⟩
  else if n = 0xF4 then .begun ⟨3, 4, 0x80, 0x8F⟩
  else .stray

/-- The characters of `bytes`, where `p?` is the character begun before them. -/
def decode (p? : Option Begun) : List UInt8 → List Char
  | [] => match p? with
    | none   => []
    | some _ => [replacement]
  | b :: rest =>
    let fresh := match opening b with
      | .whole c => c :: decode none rest
      | .begun p => decode (some p) rest
      | .stray   => replacement :: decode none rest
    match p? with
    | none   => fresh
    | some p =>
      if p.low ≤ b ∧ b ≤ p.high then
        let bits := p.bits * 0x40 + b.toNat % 0x40
        if p.need ≤ 1 then Char.ofNat bits :: decode none rest
        else decode (some ⟨p.need - 1, bits, 0x80, 0xBF⟩) rest
      else replacement :: fresh

/-- The bytes as text. -/
def lossy (bytes : List UInt8) : String := String.ofList (decode none bytes)

end Ais.Text
