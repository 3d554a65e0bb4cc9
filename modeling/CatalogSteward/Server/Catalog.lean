import CatalogSteward.Server.Condition
import CatalogSteward.Statement.Reader

/-!
# The catalog of a server

What a server knows of extensions: those it has files for, with their versions, the default one first;
the schemas and which of them is used by default; the installed extensions with their schemas and
versions; and the objects that keep an extension from being dropped.
-/

namespace CatalogSteward

structure Installation where
  schema : String
  version : String
  deriving DecidableEq, Repr

structure Catalog where
  available : List (String × List String)
  schemas : List String
  defaultSchema : String
  installed : List (String × Installation)
  dependents : List (String × List String)
  deriving DecidableEq, Repr

namespace Catalog

def fresh : Catalog where
  available := [("hstore", ["1.8", "1.7"]), ("pgcrypto", ["1.3"]), ("citext", ["1.6", "1.5"]),
    ("we\"ird", ["1.0"])]
  schemas := ["public", "app", "pg_catalog"]
  defaultSchema := "public"
  installed := []
  dependents := []

def find? {α : Type} (entries : List (String × α)) (name : String) : Option α :=
  (entries.find? fun e => e.1 == name).map (·.2)

/-- Sets the value under a name; a new name comes last. -/
def put {α : Type} (entries : List (String × α)) (name : String) (value : α) : List (String × α) :=
  if entries.any fun e => e.1 == name then
    entries.map fun e => if e.1 = name then (name, value) else e
  else entries ++ [(name, value)]

def installation? (c : Catalog) (name : String) : Option Installation := find? c.installed name

def versions? (c : Catalog) (name : String) : Option (List String) := find? c.available name

def install (c : Catalog) (name : String) (i : Installation) : Catalog :=
  { c with installed := put c.installed name i }

def uninstall (c : Catalog) (name : String) : Catalog :=
  { c with installed := c.installed.filter fun e => e.1 ≠ name }

def refuse {α : Type} (condition : Condition) (message : String) : Except Refusal α :=
  .error (.condition ⟨condition, message⟩)

def requireSchema (c : Catalog) (schema : String) : Except Refusal String :=
  if c.schemas.contains schema then .ok schema
  else refuse .invalidSchemaName ("schema \"" ++ schema ++ "\" does not exist")

def requireInstalled (c : Catalog) (name : String) : Except Refusal Installation :=
  match c.installation? name with
  | some i => .ok i
  | none => refuse .undefinedObject ("extension \"" ++ name ++ "\" does not exist")

/-- The wanted version, or the default one when none is wanted, if it is among those available. -/
def chooseVersion (versions : List String) (wanted : Option String) (complaint : String → String) :
    Except Refusal String := do
  let version ←
    match wanted.filter (· ≠ ""), versions with
    | some version, _ => .ok version
    | none, version :: _ => .ok version
    | none, [] => .error (.disruption .noVersion)
  if versions.contains version then .ok version
  else refuse .invalidParameterValue (complaint version)

def apply (c : Catalog) : Statement → Except Refusal Catalog
  | .create name schema version =>
    if (c.installation? name).isSome then .ok c
    else match c.versions? name with
    | none => refuse .undefinedFile ("could not open extension control file \"" ++ name ++ ".control\"")
    | some versions => do
      let schema ← c.requireSchema ((schema.filter (· ≠ "")).getD c.defaultSchema)
      let version ← chooseVersion versions version fun v =>
        "extension \"" ++ name ++ "\" has no installation script nor update path for version \"" ++ v
          ++ "\""
      .ok (c.install name ⟨schema, version⟩)
  | .relocate name schema => do
    let i ← c.requireInstalled name
    let schema ← c.requireSchema schema
    .ok (c.install name { i with schema := schema })
  | .reversion name version => do
    let i ← c.requireInstalled name
    match c.versions? name with
    | none => .error (.disruption .unknownName)
    | some versions =>
      let version ← chooseVersion versions version fun v =>
        "extension \"" ++ name ++ "\" has no update path to version \"" ++ v ++ "\""
      .ok (c.install name { i with version := version })
  | .drop name => do
    let _ ← c.requireInstalled name
    let complaint := "cannot drop extension " ++ name ++ " because other objects depend on it"
    if ((find? c.dependents name).getD []).isEmpty then .ok (c.uninstall name)
    else refuse .dependentObjectsStillExist complaint

/-- Carries out the text of a statement. -/
def run (c : Catalog) (text : String) : Except Refusal Catalog :=
  match Statement.read? text with
  | some s => c.apply s
  | none => refuse .syntaxError ("unexpected statement: " ++ text)

def sorted (c : Catalog) : List (String × Installation) :=
  c.installed.mergeSort fun a b => a.1 ≤ b.1

end Catalog

end CatalogSteward
