import CatalogSteward.Extension.Descriptor
import CatalogSteward.Rules
import CatalogSteward.Server.Client

/-!
# The catalog of extensions

Each operation sends exactly one statement or query. None of them takes a lock; that is the caller's
part.
-/

namespace CatalogSteward.Gateway

def resourceName : String := "postgresql_extension"

def create (access : Access) (d : Declared) : Act Unit := do
  Client.requireExtensions access resourceName
  Act.say .step ("Creating extension '" ++ d.name ++ "'")
  Client.execute access "creating extension" (.create d.name d.schema d.version)

def find (access : Access) (name : String) : Act (Option Observed) := do
  match (← Client.fetch access "reading extension" (.entry name)).head? with
  | none => return none
  | some row =>
    match Observed.ofRow row with
    | .ok o => return some o
    | .error f => Act.fault f

def has (access : Access) (name : String) : Act Bool := do
  return !(← Client.fetch access "checking extension" (.presence name)).isEmpty

def relocate (access : Access) (name schema : String) : Act Unit := do
  let schema ← Act.checked (Rules.checkSchemaChange name schema)
  Act.say .step ("Moving extension '" ++ name ++ "' to schema '" ++ schema ++ "'")
  Client.execute access "updating extension SCHEMA" (.relocate name schema)

/-- Updates an extension to a version, or to the default one. -/
def reversion (access : Access) (name : String) (version : Option String) : Act Unit := do
  let target := (version.filter (· ≠ "")).getD "default version"
  Act.say .step ("Updating extension '" ++ name ++ "' to " ++ target)
  Client.execute access "updating extension version" (.reversion name version)

def drop (access : Access) (name : String) : Act Unit := do
  Act.say .step ("Dropping extension '" ++ name ++ "'")
  Client.execute access "deleting extension" (.drop name)

def list (access : Access) : Act (List Observed) := do
  Client.requireExtensions access resourceName
  let rows ← Client.fetch access "listing extensions" .all
  match rows.mapM Observed.ofRow with
  | .ok os => return os
  | .error f => Act.fault f

end CatalogSteward.Gateway
