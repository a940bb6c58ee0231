/-!
# JSON values

An object is the list of its members as they were written. Where a key is repeated the last
member counts, so `get?` looks from the end.
-/

namespace MessageHarvest

/-- A JSON value. A number that is written with a fraction or an exponent keeps its spelling. -/
inductive Json where
  | null
  | bool (b : Bool)
  | integer (n : Int)
  | real (spelling : String)
  | string (s : String)
  | array (items : List Json)
  | object (members : List (String × Json))
  deriving Repr, Inhabited

namespace Json

/-- The value of the last member with a given key. -/
def lookup (key : String) (members : List (String × Json)) : Option Json :=
  (members.reverse.find? (·.1 = key)).map (·.2)

/-- The value under a key of an object. -/
def get? (key : String) : Json → Option Json
  | object members => lookup key members
  | _ => none

/-- A natural number as a value. -/
def ofNat (n : Nat) : Json := integer n

end Json

end MessageHarvest
