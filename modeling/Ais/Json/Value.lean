/-!
# Json — values

A JSON text as a tree.  Members keep their order and may share a name.  A number that is no integer
of 64 bits is kept as `inexact`, without its value, and a string whose escapes spell no text as
`garbled`; a member named by such a string has no name.
-/

namespace Ais.Json

inductive Value where
  | null
  | bool (b : Bool)
  | int (n : Int)
  | inexact
  | string (s : String)
  | garbled
  | array (items : List Value)
  | object (members : List (Option String × Value))

namespace Value

/-- An object with a value for each name. -/
def record (fields : List (String × Value)) : Value :=
  .object (fields.map fun f => (some f.1, f.2))

def nat (n : Nat) : Value := .int n

end Value

end Ais.Json
