import CatalogSteward.Failure
import CatalogSteward.Settings.Reader
import CatalogSteward.Text.Utf8
import CatalogSteward.Yaml.Reader

/-!
# Configuration files

Settings are loaded from a file that holds one mapping, and a new file is made from a commented example.
What is wrong with a file is an error, except that bytes that are no text, and values that exist only in
form, are faults.
-/

namespace CatalogSteward.Settings

def defaultPath : Path := .ofText "/etc/pgstate/config.yaml"

def ofText (path : Path) (text : String) : Except Failure Settings :=
  match Yaml.read text.toList with
  | .error .malformed => .error (.error (.configMalformed path))
  | .error (.fault f) => .error (.fault (.document f))
  | .ok v =>
    let entries? := match v with
      | .null => some []
      | .mapping entries => some entries
      | _ => none
    match entries? with
    | none => .error (.error (.configNotMapping path v.typeName))
    | some entries =>
      (conclude (readSettings entries)).mapError fun r => .error (.configInvalid path r.lines)

def load (path : Path) : DiskAct Settings := do
  match (← get).read path with
  | .error (.refused .missing _ _) => throw (.error (.configMissing path))
  | .error .nulInPath => DiskAct.fault (.disk .nulInPath)
  | .error f => throw (.error (.configUnreadable path [f.message]))
  | .ok bytes =>
    match Text.readText? bytes with
    | none => DiskAct.fault .unreadableText
    | some text => liftM (ofText path text)

/-- Loads a configuration file if there is one, and takes the defaults otherwise. -/
def loadOrDefault (path : Path) : DiskAct Settings := do
  if ← DiskAct.ask (Disk.pathExists path) then load path else return .default

def exampleText : String :=
  "# pgstate configuration
# The password is read from PGSTATE_PASSWORD (or ~/.pgpass), never from here

# Database whose catalog is managed
postgres:
  host: 127.0.0.1
  port: 5432
  database: postgres
  user: postgres
  sslmode: prefer          # disable, allow, prefer, require, verify-ca, verify-full
  connect_timeout: 10      # seconds; 0 waits forever
  application_name: pgstate
  # Assume this server version instead of asking the server
  # expected_version: \"16.2\"

# JSON lines record of every catalog change
audit:
  enabled: true
  log_path: /var/log/pgstate/audit.log
  max_size_mb: 100
  backup_count: 10
"

/-- The mode of a new configuration file, which only its owner may read. -/
def fileMode : Nat := 0o600

/-- Makes a configuration file from the example. An existing one is replaced only when that is forced. -/
def initFile (path : Path) (force : Bool) : DiskAct Unit := do
  if (← DiskAct.ask (Disk.pathExists path)) && !force then throw (.error (.configPresent path))
  DiskAct.ofAction do
    Disk.makeDirectories path.parent
    Disk.write path (Text.encodeUtf8 exampleText)
    Disk.setMode path fileMode

end CatalogSteward.Settings
