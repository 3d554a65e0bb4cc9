import CatalogSteward.Rules
import CatalogSteward.Settings.Basic
import CatalogSteward.Settings.Conversion

/-!
# Reading settings

The settings are read from a mapping in a fixed order. A value of the wrong form is noted as a problem
and reading goes on; a value that breaks one of the rules for names and settings ends it at once. Names
that are not known are ignored.
-/

namespace CatalogSteward.Settings

inductive Rejection where
  | error (e : Error)
  | problems (ps : List Problem)
  deriving Repr

abbrev Check (α : Type) := StateT (List Problem) (Except Error) α

def note (p : Problem) : Check Unit := modify fun ps => ps ++ [p]

/-- Reads the setting under a name, if it is there. A value with a defect leaves the default, which does
not matter then. -/
def field {α : Type} (entries : List (Value × Value)) (place : List String) (default : α)
    (read : Value → Except Defect α) (check : α → Except Error (Except Defect α)) : Check α := do
  match Value.get? entries (place.getLast?.getD "") with
  | none => return default
  | some v =>
    match read v with
    | .error d =>
      note ⟨place, d, v⟩
      return default
    | .ok a =>
      match ← liftM (check a) with
      | .ok a => return a
      | .error d =>
        note ⟨place, d, v⟩
        return default

def free {α : Type} (a : α) : Except Error (Except Defect α) := .ok (.ok a)

def rule {α : Type} (check : α → Except Error α) (a : α) : Except Error (Except Defect α) :=
  (check a).map .ok

def atLeast (least : Int) (complaint : String) (n : Int) : Except Error (Except Defect Int) :=
  .ok (if least ≤ n then .ok n else .error (.rejected complaint))

/-- The rule for ports; a number that cannot be written cannot be complained about either. -/
def portRule (n : Int) : Except Error (Except Defect Int) :=
  if Decimal.isWritable n then rule Rules.checkPort n
  else .ok (.error (.rejected Decimal.unwritableMessage))

def readOptionalText : Value → Except Defect (Option String)
  | .null => .ok none
  | v => (readText v).map some

def versionRule : Option String → Except Error (Except Defect (Option String))
  | none => .ok (.ok none)
  | some s => (Rules.checkVersion s).map fun s => .ok (some s)

def group {α : Type} (place : List String) (model : String) (default : α) (v : Value)
    (read : List (Value × Value) → Check α) : Check α := do
  match v with
  | .mapping entries => read entries
  | v =>
    note ⟨place, .notModel model, v⟩
    return default

def readConnection (place : List String) (entries : List (Value × Value)) : Check Connection := do
  let d := Connection.default
  let name := rule (Rules.checkName "database object")
  return {
    host := ← field entries (place ++ ["host"]) d.host readText free
    port := ← field entries (place ++ ["port"]) d.port readInteger portRule
    database := ← field entries (place ++ ["database"]) d.database readText name
    user := ← field entries (place ++ ["user"]) d.user readText name
    sslMode := ← field entries (place ++ ["sslmode"]) d.sslMode readText (rule Rules.checkSslMode)
    connectTimeout := ← field entries (place ++ ["connect_timeout"]) d.connectTimeout readInteger
      (atLeast 0 "connect_timeout must be 0 (wait forever) or positive")
    applicationName := ← field entries (place ++ ["application_name"]) d.applicationName readText free
    expectedVersion := ← field entries (place ++ ["expected_version"]) d.expectedVersion readOptionalText
      versionRule }

def readAudit (place : List String) (entries : List (Value × Value)) : Check AuditSettings := do
  let d := AuditSettings.default
  let positive := atLeast 1 "must be at least 1"
  return {
    enabled := ← field entries (place ++ ["enabled"]) d.enabled readBoolean free
    logPath := ← field entries (place ++ ["log_path"]) d.logPath readPath free
    maxSizeMb := ← field entries (place ++ ["max_size_mb"]) d.maxSizeMb readInteger positive
    backupCount := ← field entries (place ++ ["backup_count"]) d.backupCount readInteger positive }

/-- Reads the group under a name; an absent one has all its defaults. A mapping that is its own group
is read once more. -/
def subgroup {α : Type} (entries : List (Value × Value)) (name model : String) (default : α)
    (read : List String → List (Value × Value) → Check α) : Check α :=
  match Value.get? entries name with
  | none => return default
  | some (.enclosing true) => read [name] entries
  | some v => group [name] model default v (read [name])

def readSettings (entries : List (Value × Value)) : Check Settings := do
  return {
    connection := ← subgroup entries "postgres" "PostgresConfig" .default readConnection
    audit := ← subgroup entries "audit" "AuditConfig" .default readAudit }

def conclude {α : Type} (c : Check α) : Except Rejection α :=
  match c.run [] with
  | .error e => .error (.error e)
  | .ok (a, []) => .ok a
  | .ok (_, ps) => .error (.problems ps)

def ofValue (v : Value) : Except Rejection Settings :=
  conclude (group [] "StateConfig" .default v readSettings)

def auditOfValue (v : Value) : Except Rejection AuditSettings :=
  conclude (group [] "AuditConfig" .default v (readAudit []))

def Rejection.lines : Rejection → List String
  | error e => Text.lines e.message
  | problems ps => problemLines ps

end CatalogSteward.Settings
