import CatalogSteward.Number.Binary64

/-!
# JSON values

A JSON value with the fields of an object in the order in which they were written. Integers are of any
size and are kept apart from floating point numbers.
-/

namespace CatalogSteward

inductive Json where
  | null
  | bool (b : Bool)
  | int (n : Int)
  | real (x : Binary64)
  | str (s : String)
  | list (items : List Json)
  | object (fields : List (String × Json))
  deriving Inhabited, Repr

namespace Json

mutual

/-- Whether two values are the same; the fields of an object are compared in their order. -/
def same : Json → Json → Bool
  | .null, .null => true
  | .bool a, .bool b => a == b
  | .int m, .int n => m == n
  | .real x, .real y => x == y
  | .str s, .str t => s == t
  | .list js, .list ks => sameItems js ks
  | .object fs, .object gs => sameFields fs gs
  | _, _ => false

def sameItems : List Json → List Json → Bool
  | [], [] => true
  | j :: js, k :: ks => same j k && sameItems js ks
  | _, _ => false

def sameFields : List (String × Json) → List (String × Json) → Bool
  | [], [] => true
  | (a, j) :: fs, (b, k) :: gs => a == b && same j k && sameFields fs gs
  | _, _ => false

end

instance : BEq Json := ⟨same⟩

/-- An optional string, `null` when absent. -/
def ofOption : Option String → Json
  | some s => .str s
  | none => .null

/-- The value of an object's field. Of several fields with one name the last counts. -/
def field? (fields : List (String × Json)) (name : String) : Option Json :=
  (fields.reverse.find? fun f => f.1 == name).map (·.2)

end Json

end CatalogSteward
