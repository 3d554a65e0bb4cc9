import CatalogSteward.Extension.Gateway
import CatalogSteward.Extension.Plan

/-!
# The lifecycle of an extension

Every operation first makes sure that the server has extensions, then checks what can be checked without
asking it, and then takes the lock of the database, shared for reading and exclusive for all else.
Nothing is tried twice and nothing is taken back.
-/

namespace CatalogSteward.Lifecycle

def readHeld (access : Access) (identity : String) : Act (Option Observed) := do
  let observed ← Gateway.find access identity
  if observed.isNone then Act.say .warn ("PostgreSQL extension (" ++ identity ++ ") not found")
  return observed

def create (access : Access) (desired : Declared) : Act (Option Observed) := do
  Client.requireExtensions access Gateway.resourceName
  let _ ← Act.checked (Rules.checkName "extension" desired.name)
  Act.locked .exclusive access.target do
    Gateway.create access desired
    readHeld access desired.name

/-- Whether an extension is installed. The lock is held exclusively, so that the answer never falls
between a statement and its reading back. -/
def installed (access : Access) (identity : String) : Act Bool := do
  Client.requireExtensions access Gateway.resourceName
  if identity = "" then return false
  else Act.locked .exclusive access.target (Gateway.has access identity)

def read (access : Access) (identity : String) : Act (Option Observed) := do
  Client.requireExtensions access Gateway.resourceName
  if identity = "" then return none
  else Act.locked .shared access.target (readHeld access identity)

/-- The outcome of an update: nothing was to be done, or the state as it was read back. -/
inductive Updated where
  | unchanged
  | readBack (observed : Option Observed)
  deriving Repr

/-- Moves an extension and changes its version, where that is declared and differs. -/
def update (access : Access) (identity : String) (previous : Observed) (desired : Declared) :
    Act Updated := do
  Client.requireExtensions access Gateway.resourceName
  let changes ← Act.checked (desired.changes identity previous)
  if changes.isEmpty then
    Act.say .verbose ("Extension '" ++ identity ++ "' is up to date")
    return .unchanged
  else
    let observed ← Act.locked .exclusive access.target do
      if let some schema := changes.schema then Gateway.relocate access identity schema
      if let some version := changes.version then Gateway.reversion access identity (some version)
      readHeld access identity
    return .readBack observed

def delete (access : Access) (identity : String) : Act Unit := do
  Client.requireExtensions access Gateway.resourceName
  let _ ← Act.checked (Rules.checkName "extension" identity)
  Act.locked .exclusive access.target (Gateway.drop access identity)

def adopt (access : Access) (name : String) : Act Observed := do
  match ← read access name with
  | some observed => return observed
  | none => Act.fail (.notImportable name)

def resourceKinds : List String := ["extension"]

def checkKind (kind : String) : Except Error String :=
  if resourceKinds.contains kind then .ok kind else .error (.resourceKind kind resourceKinds)

end CatalogSteward.Lifecycle
