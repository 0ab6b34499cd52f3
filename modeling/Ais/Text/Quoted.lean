import Ais.Text.Lossy
import Ais.Text.Shown

/-!
# Text — quoted texts and the text of a record

A quoted text stands between two quotes; inside, the quote itself and the backslash are escaped
by a backslash, the common controls by a letter, and every other character that is not shown by its
code in hexadecimal.  A record is its name, and its fields by name between braces.
-/

namespace Ais.Text

/-- The code in hexadecimal, without leading zeros. -/
def hex (n : Nat) : String := String.ofList (Nat.toDigits 16 n)

/-- One character inside the quotes `quote`. -/
def escape (quote c : Char) : String :=
  if c = '\x00' then "\\0"
  else if c = '\t' then "\\t"
  else if c = '\r' then "\\r"
  else if c = '\n' then "\\n"
  else if c = '\\' then "\\\\"
  else if c = quote then "\\" ++ String.singleton c
  else if isShown c then String.singleton c
  else "\\u\x7b" ++ hex c.toNat ++ "\x7d"

/-- The text in double quotes. -/
def quoted (s : String) : String :=
  "\"" ++ String.join (s.toList.map (escape '\x22')) ++ "\""

/-- The character in single quotes. -/
def quotedChar (c : Char) : String := "'" ++ escape '\x27' c ++ "'"

/-- The bytes, read with replacement, in double quotes. -/
def quotedBytes (bytes : List UInt8) : String := quoted (lossy bytes)

/-- `None`, or `Some` with the text of the value. -/
def optional : Option String → String
  | none   => "None"
  | some s => "Some(" ++ s ++ ")"

/-- A name with one value in parentheses. -/
def wrapped (name value : String) : String := name ++ "(" ++ value ++ ")"

/-- A name with its fields, each with its text. -/
def record (name : String) (fields : List (String × String)) : String :=
  name ++ " \x7b " ++ ", ".intercalate (fields.map fun f => f.1 ++ ": " ++ f.2) ++ " \x7d"

/-- The texts between brackets. -/
def listed (items : List String) : String := "[" ++ ", ".intercalate items ++ "]"

end Ais.Text
