import CatalogSteward.DotEnv
import CatalogSteward.Settings.File
import CatalogSteward.Text.Case

/-!
# Access to the database

The password is kept apart from the settings: it comes from a variable of the environment, or from a
file of variables in the working directory. Together with the settings it makes up the parameters of a
connection.
-/

namespace CatalogSteward

structure Access where
  settings : Settings
  password : Option String
  deriving DecidableEq, Repr

namespace Access

/-- The name of the variable with the password, in lower case; the case of a name does not count. -/
def passwordVariable : String := "pgstate_password"

/-- The value of a variable whose name may be written in several ways. Of a name written in the same way
the last value counts, and of several ways the one that appeared last. -/
def valueOf (bindings : List (String × Option String)) (name : String) : Option String :=
  let spellings := (bindings.map (·.1)).filter fun spelling => Text.lower spelling == name
  match (spellings.foldl (fun seen s => if seen.contains s then seen else seen ++ [s]) []).getLast? with
  | none => none
  | some spelling => (bindings.reverse.find? fun b => b.1 == spelling).bind (·.2)

def variableFile : Path := .ofText ".env"

def readPassword (environment : List (String × String)) : DiskAct (Option String) := do
  let d ← get
  let bindings ←
    if d.isFile variableFile then
      match d.read variableFile with
      | .error f => DiskAct.fault (.disk f)
      | .ok bytes =>
        match Text.readText? bytes with
        | none => DiskAct.fault .unreadableText
        | some text => pure (DotEnv.read environment text)
    else pure []
  return (valueOf (environment.map fun b => (b.1, some b.2)) passwordVariable).orElse fun _ =>
    valueOf bindings passwordVariable

/-- The settings of a file, or the default ones, with the password. -/
def load (path : Path) (environment : List (String × String)) : DiskAct Access := do
  let settings ← Settings.loadOrDefault path
  return ⟨settings, ← readPassword environment⟩

def ofSettings (settings : Settings) (environment : List (String × String)) : DiskAct Access := do
  return ⟨settings, ← readPassword environment⟩

def hasPassword (a : Access) : Bool := a.password.any (· ≠ "")

/-- The parameters of a connection; the password is among them only when it is not empty. -/
def parameters (a : Access) : List (String × Json) :=
  let c := a.settings.connection
  [("host", .str c.host), ("port", .int c.port), ("dbname", .str c.database), ("user", .str c.user),
    ("sslmode", .str c.sslMode), ("connect_timeout", .int c.connectTimeout),
    ("application_name", .str c.applicationName)]
    ++ (if a.hasPassword then [("password", Json.ofOption a.password)] else [])

def target (a : Access) : String := a.settings.connection.target

end Access

end CatalogSteward
