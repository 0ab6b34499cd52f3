import Ais.Json.Value

/-!
# Json — reading a text

The grammar of RFC 8259, and nothing beyond it: no comments, no trailing commas, no leading zeros,
no control characters in strings, and only blanks after the value.  Each reader takes characters and
gives what it read and the rest, or nothing.
-/

namespace Ais.Json

/-- A character of a string: as it stands, or a UTF-16 unit written by its code. -/
inductive Piece where
  | char (c : Char)
  | unit (n : Nat)

def isBlank (c : Char) : Bool := c == ' ' || c == '\n' || c == '\t' || c == '\r'

def skipBlanks (cs : List Char) : List Char := cs.dropWhile isBlank

/-- The value of a hexadecimal digit of either case. -/
def hexDigit? (c : Char) : Option Nat :=
  if '0' ≤ c ∧ c ≤ '9' then some (c.toNat - 48)
  else if 'A' ≤ c ∧ c ≤ 'F' then some (c.toNat - 55)
  else if 'a' ≤ c ∧ c ≤ 'f' then some (c.toNat - 87)
  else none

/-- The unit of four hexadecimal digits. -/
def hexUnit? (a b c d : Char) : Option Nat := do
  return (((← hexDigit? a) * 16 + (← hexDigit? b)) * 16 + (← hexDigit? c)) * 16 + (← hexDigit? d)

/-- What a letter after a backslash stands for. -/
def escaped? (c : Char) : Option Char :=
  match c with
  | '\x22' => some '\x22'
  | '\\'   => some '\\'
  | '/'    => some '/'
  | 'b'    => some '\x08'
  | 'f'    => some '\x0c'
  | 'n'    => some '\n'
  | 'r'    => some '\r'
  | 't'    => some '\t'
  | _      => none

/-- The pieces of a string, up to its closing quote. -/
def pieces : List Char → Option (List Piece × List Char)
  | [] => none
  | '\x22' :: rest => some ([], rest)
  | '\\' :: 'u' :: a :: b :: c :: d :: rest => do
    let n ← hexUnit? a b c d
    let (ps, rest) ← pieces rest
    return (.unit n :: ps, rest)
  | '\\' :: e :: rest => do
    let c ← escaped? e
    let (ps, rest) ← pieces rest
    return (.char c :: ps, rest)
  | c :: rest =>
    if c.toNat < 0x20 ∨ c = '\\' then none
    else do
      let (ps, rest) ← pieces rest
      return (.char c :: ps, rest)

/-- The first unit of a pair. -/
def isHigh (n : Nat) : Bool := 0xD800 ≤ n && n < 0xDC00

/-- The second unit of a pair. -/
def isLow (n : Nat) : Bool := 0xDC00 ≤ n && n < 0xE000

/-- The character that a pair of units spells. -/
def ofPair (high low : Nat) : Char :=
  Char.ofNat (0x10000 + (high - 0xD800) * 0x400 + (low - 0xDC00))

/-- The text of the pieces; two units that are surrogates must make a pair. -/
def spell? : List Piece → Option (List Char)
  | [] => some []
  | .char c :: ps => (c :: ·) <$> spell? ps
  | .unit h :: .unit l :: ps =>
    if isHigh h then
      if isLow l then (ofPair h l :: ·) <$> spell? ps else none
    else if isLow h then none
    else (Char.ofNat h :: ·) <$> spell? (.unit l :: ps)
  | .unit n :: ps => if isHigh n || isLow n then none else (Char.ofNat n :: ·) <$> spell? ps

/-- A string after its opening quote; `none` inside where it spells no text. -/
def string (cs : List Char) : Option (Option String × List Char) := do
  let (ps, rest) ← pieces cs
  return ((spell? ps).map String.ofList, rest)

/-- A run of digits, of which there is at least one. -/
def digits (cs : List Char) : Option (List Char × List Char) :=
  let ds := cs.takeWhile Char.isDigit
  if ds.isEmpty then none else some (ds, cs.drop ds.length)

def natOf (ds : List Char) : Nat := ds.foldl (fun n d => n * 10 + (d.toNat - 48)) 0

/-- The whole part: digits that start with `0` only if that is all. -/
def whole (cs : List Char) : Option (List Char × List Char) := do
  let (ds, rest) ← digits cs
  if ds.head? = some '0' ∧ ds.length ≠ 1 then none else some (ds, rest)

/-- The fraction, if one begins here, and whether it does. -/
def fraction (cs : List Char) : Option (Bool × List Char) :=
  match cs with
  | '.' :: rest => do return (true, (← digits rest).2)
  | _           => some (false, cs)

/-- The exponent, if one begins here, and whether it does. -/
def exponent (cs : List Char) : Option (Bool × List Char) :=
  match cs with
  | e :: rest =>
    if e = 'e' ∨ e = 'E' then
      match rest with
      | s :: rest' => do
        return (true, (← digits (if s = '+' ∨ s = '-' then rest' else rest)).2)
      | [] => none
    else some (false, cs)
  | [] => some (false, cs)

/-- A number: its sign, its whole part, and no value where a fraction or an exponent follows, where
it is a negative zero, or where 64 bits do not hold it. -/
def number (cs : List Char) : Option (Value × List Char) := do
  let negative := cs.head? == some '-'
  let (ds, rest) ← whole (if negative then cs.drop 1 else cs)
  let (hasFraction, rest) ← fraction rest
  let (hasExponent, rest) ← exponent rest
  let n := natOf ds
  let v : Value :=
    if hasFraction || hasExponent then .inexact
    else if negative then
      if n = 0 ∨ 0x8000000000000000 < n then .inexact else .int (-(n : Int))
    else if n ≤ 0xFFFFFFFFFFFFFFFF then .int n else .inexact
  return (v, rest)

/-- The characters of `word`, and what follows them. -/
def literal (word : List Char) (v : Value) (cs : List Char) : Option (Value × List Char) :=
  if cs.take word.length = word then some (v, cs.drop word.length) else none

mutual

/-- A value; each call spends one unit of `fuel`, and no text of that length needs more. -/
def value (fuel : Nat) (cs : List Char) : Option (Value × List Char) :=
  match fuel with
  | 0 => none
  | fuel + 1 =>
    match skipBlanks cs with
    | '\x7b' :: rest => do
      let (ms, rest) ← members fuel (skipBlanks rest)
      return (.object ms, rest)
    | '[' :: rest => do
      let (vs, rest) ← items fuel (skipBlanks rest)
      return (.array vs, rest)
    | '\x22' :: rest => do
      let (s?, rest) ← string rest
      return (match s? with | some s => .string s | none => .garbled, rest)
    | 't' :: rest => literal ['r', 'u', 'e'] (.bool true) rest
    | 'f' :: rest => literal ['a', 'l', 's', 'e'] (.bool false) rest
    | 'n' :: rest => literal ['u', 'l', 'l'] .null rest
    | rest => number rest

/-- The items of an array that has just been opened. -/
def items (fuel : Nat) (cs : List Char) : Option (List Value × List Char) :=
  match fuel with
  | 0 => none
  | fuel + 1 =>
    match cs with
    | ']' :: rest => some ([], rest)
    | _ => do
      let (v, rest) ← value fuel cs
      let (vs, rest) ← moreItems fuel (skipBlanks rest)
      return (v :: vs, rest)

/-- The items after the first. -/
def moreItems (fuel : Nat) (cs : List Char) : Option (List Value × List Char) :=
  match fuel with
  | 0 => none
  | fuel + 1 =>
    match cs with
    | ']' :: rest => some ([], rest)
    | ',' :: rest => do
      let (v, rest) ← value fuel rest
      let (vs, rest) ← moreItems fuel (skipBlanks rest)
      return (v :: vs, rest)
    | _ => none

/-- One member: a name, a colon and a value. -/
def member (fuel : Nat) (cs : List Char) : Option ((Option String × Value) × List Char) :=
  match fuel with
  | 0 => none
  | fuel + 1 =>
    match cs with
    | '\x22' :: rest => do
      let (name?, rest) ← string rest
      match skipBlanks rest with
      | ':' :: rest =>
        let (v, rest) ← value fuel rest
        return ((name?, v), rest)
      | _ => none
    | _ => none

/-- The members of an object that has just been opened. -/
def members (fuel : Nat) (cs : List Char) : Option (List (Option String × Value) × List Char) :=
  match fuel with
  | 0 => none
  | fuel + 1 =>
    match cs with
    | '\x7d' :: rest => some ([], rest)
    | _ => do
      let (m, rest) ← member fuel cs
      let (ms, rest) ← moreMembers fuel (skipBlanks rest)
      return (m :: ms, rest)

/-- The members after the first. -/
def moreMembers (fuel : Nat) (cs : List Char) :
    Option (List (Option String × Value) × List Char) :=
  match fuel with
  | 0 => none
  | fuel + 1 =>
    match cs with
    | '\x7d' :: rest => some ([], rest)
    | ',' :: rest => do
      let (m, rest) ← member fuel (skipBlanks rest)
      let (ms, rest) ← moreMembers fuel (skipBlanks rest)
      return (m :: ms, rest)
    | _ => none

end

/-- The value of a text that holds one value and nothing else. -/
def Value.parse? (text : String) : Option Value := do
  let cs := text.toList
  let (v, rest) ← value (2 * cs.length + 2) cs
  if (skipBlanks rest).isEmpty then some v else none

end Ais.Json
