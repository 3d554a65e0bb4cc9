import CatalogSteward.Fault
import CatalogSteward.Value

/-!
# Descriptors of extensions

An extension is declared by its name and, if they matter, its schema and version. What is observed of it
comes from a row of the catalog, whose cells may hold any value.
-/

namespace CatalogSteward

/-- What is wanted of an extension. An absent schema or version is left as it is. -/
structure Declared where
  name : String
  schema : Option String
  version : Option String
  deriving DecidableEq, Repr

structure Observed where
  name : Json
  schema : Json
  version : Json
  deriving BEq, Repr, Inhabited

namespace Declared

def toJson (d : Declared) : Json :=
  .object [("name", .str d.name), ("schema", Json.ofOption d.schema), ("version", Json.ofOption d.version)]

end Declared

namespace Observed

def toJson (o : Observed) : Json := .object [("name", o.name), ("schema", o.schema), ("version", o.version)]

/-- The descriptor in a mapping. The name becomes a text whatever it is; the other two may be missing. -/
def ofJson (j : Json) : Except Fault Observed :=
  match j with
  | .object fields =>
    match Json.field? fields "name" with
    | none => .error .noName
    | some name =>
      .ok ⟨.str (Value.ofJson name).plain, (Json.field? fields "schema").getD .null,
        (Json.field? fields "version").getD .null⟩
  | _ => .error .notMapping

def ofRow (row : List Json) : Except Fault Observed :=
  match row with
  | [name, schema, version] => .ok ⟨name, schema, version⟩
  | row => .error (if row.length < 3 then .rowTooShort 3 row.length else .rowTooLong 3)

end Observed

end CatalogSteward
