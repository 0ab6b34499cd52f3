import Ais.Json.Value

/-!
# Json — values of a shape

What a value means where a type is expected.  A record is an object with its fields by name, none
twice, or an array with all of them in order; a choice is its name, or an object with that name
alone.  Whatever does not fit gives nothing.
-/

namespace Ais.Json.Value

def bool? : Value → Option Bool
  | .bool b => some b
  | _       => none

def string? : Value → Option String
  | .string s => some s
  | _         => none

/-- An integer from `low` to `high`. -/
def int? (low high : Int) : Value → Option Int
  | .int n => if low ≤ n ∧ n ≤ high then some n else none
  | _      => none

/-- A natural number of so many bits. -/
def nat? (bits : Nat) (v : Value) : Option Nat := (v.int? 0 (Nat.pow 2 bits - 1)).map Int.toNat

/-- Nothing for null. -/
def optional? {α : Type} (item? : Value → Option α) : Value → Option (Option α)
  | .null => some none
  | v     => (item? v).map some

/-- The one value among `members` named `name`: nothing inside where there is none, nothing at all
where there are several. -/
def lookup? (members : List (Option String × Value)) (name : String) : Option (Option Value) :=
  match members.filter fun m => m.1 == some name with
  | []  => some none
  | [m] => some (some m.2)
  | _   => none

/-- The values of a record's fields, in the order of `names`.  A `closed` record has no others. -/
def fields? (names : List String) (closed : Bool) : Value → Option (List (Option Value))
  | .object members =>
    let known (m : Option String × Value) : Bool := match m.1 with
      | none      => false
      | some name => !closed || names.contains name
    if members.all known then names.mapM (lookup? members) else none
  | .array items =>
    if items.length = names.length then some (items.map some) else none
  | _ => none

/-- A choice by its name, with the value it carries: null for one written as a bare string. -/
def choice? : Value → Option (String × Option Value)
  | .string name                => some (name, none)
  | .object [(some name, v)]    => some (name, some v)
  | _                           => none

/-- A choice that carries nothing. -/
def bare? (v : Value) : Option String :=
  match v.choice? with
  | some (name, none)       => some name
  | some (name, some .null) => some name
  | _                       => none

end Ais.Json.Value
