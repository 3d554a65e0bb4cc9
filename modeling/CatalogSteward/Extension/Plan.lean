import CatalogSteward.Extension.Descriptor
import CatalogSteward.Rules

/-!
# Planned changes

An update changes the schema and the version of an extension where they are declared and differ from
what is known. The name cannot change. An empty version asks for the default one.
-/

namespace CatalogSteward

/-- The new schema and the new version, where they are to change; the schema changes first. -/
structure Changes where
  schema : Option String
  version : Option String
  deriving DecidableEq, Repr

namespace Changes

def fields (c : Changes) : List (String × String) :=
  (c.schema.map fun s => ("schema", s)).toList ++ (c.version.map fun v => ("version", v)).toList

def isEmpty (c : Changes) : Bool := c.schema.isNone && c.version.isNone

end Changes

def differing (wanted : Option String) (known : Json) : Option String :=
  wanted.filter fun s => Json.str s != known

/-- The changes that lead from what is known of an extension to what is declared. -/
def Declared.changes (desired : Declared) (identity : String) (previous : Observed) :
    Except Error Changes := do
  if desired.name ≠ identity then .error (.rename identity desired.name)
  else
    let schema ←
      match differing desired.schema previous.schema with
      | none => .ok none
      | some schema => (Rules.checkSchemaChange identity schema).map some
    return ⟨schema, differing desired.version previous.version⟩

end CatalogSteward
