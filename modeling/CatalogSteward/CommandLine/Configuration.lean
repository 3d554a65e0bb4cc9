import CatalogSteward.CommandLine.Session

/-!
# Commands on the configuration

The configuration in force can be shown, a new file can be made, and a file can be checked. The password
is never shown, only whether there is one.
-/

namespace CatalogSteward.CommandLine

def configExists (i : Invocation) : Act Bool :=
  Act.onDisk (DiskAct.ask (Disk.pathExists i.configPath))

/-- Shows settings as a document, if all their numbers can be written. -/
def showSettings (s : Settings) : Act Unit := do
  if s.isWritable then Act.happen (.yaml "Configuration" s.toYaml) else Act.fault .unwritableNumber

def passwordStatus (access : Access) : String :=
  if access.hasPassword then "Set" else "Not set (libpq falls back to ~/.pgpass)"

def displaySettings (i : Invocation) : Act Unit :=
  reported do
    let access ← loadAccess i
    let status := if ← configExists i then "yes" else "no (defaults)"
    Act.summary "Source"
      [("Config file", some i.configPath.text), ("File exists", some status),
        ("Target", some access.target), ("PGSTATE_PASSWORD", some (passwordStatus access))]
    showSettings access.settings

def initSettings (i : Invocation) (force : Bool) : Act Unit := do
  reported (Act.onDisk (Settings.initFile i.configPath force))
  Act.say .success ("Configuration file created: " ++ i.configPath.text)
  Act.say .hint "Point postgres.host/database at your server and export PGSTATE_PASSWORD"

def validateSettings (i : Invocation) : Act Unit := do
  if !(← configExists i) then
    Act.say .error ("Configuration file not found: " ++ i.configPath.text)
    Act.say .hint "Create it with: pgstate config init"
    exit 2
  let access ← reported (loadAccess i)
  Act.say .success ("Configuration is valid: " ++ i.configPath.text)
  Act.say .info ("Target database: " ++ access.target)
  match access.settings.connection.expectedVersion.filter (· ≠ "") with
  | some version => Act.say .info ("Server version detection disabled, assuming " ++ version)
  | none => pure ()
  if i.isVerbose then showSettings access.settings

end CatalogSteward.CommandLine
