import CatalogSteward.Audit.Event
import CatalogSteward.Failure
import CatalogSteward.Settings.Basic
import CatalogSteward.Text.Hex
import CatalogSteward.Text.Utf8

/-!
# The audit trail

Records are added to the end of a file. When the file has grown beyond its limit it becomes the first
backup; each backup moves one place on, and what the last place held is dropped. A refusal of the
operating system is only mentioned, it fails nothing.
-/

namespace CatalogSteward

/-- A trail with its limit, the number of its backups, and the ids of the open correlations, the
innermost first. -/
structure Trail where
  path : Path
  maxSizeBytes : Int
  backupCount : Int
  enabled : Bool
  sessionId : String
  correlations : List String
  deriving DecidableEq, Repr

namespace Trail

def ticketDigits (n : Nat) : String := String.ofList (Text.hex 8 n)

def sessionIdOf (ticket : Nat) : String := ticketDigits ticket ++ "-0000-0000-0000-000000000000"

def correlationIdOf (operation : String) (ticket : Nat) : String := operation ++ "_" ++ ticketDigits ticket

def bytesPerMb : Int := 1024 * 1024

def start (path : Path) (maxSizeMb backupCount : Int) (enabled : Bool) (ticket : Nat) : Trail where
  path := path
  maxSizeBytes := maxSizeMb * bytesPerMb
  backupCount := backupCount
  enabled := enabled
  sessionId := sessionIdOf ticket
  correlations := []

def ofSettings (s : AuditSettings) (ticket : Nat) : Trail :=
  start s.logPath s.maxSizeMb s.backupCount s.enabled ticket

def default (ticket : Nat) : Trail := ofSettings .default ticket

/-- An event with the ids of the session and of the innermost open correlation. -/
def stamp (t : Trail) (e : AuditEvent) : AuditEvent :=
  { e with
    sessionId := some t.sessionId
    correlationId := match t.correlations with
      | [] => e.correlationId
      | id :: _ => some id }

def fileMode : Nat := 0o640

def append (path : Path) (line : String) : Disk.Action Unit := do
  Disk.makeDirectories path.parent
  Disk.append path fileMode (Text.encodeUtf8 line)

def backup (path : Path) (n : Nat) : Path := path.withSuffix ("." ++ Decimal.natText n)

/-- Moves the backups from the given place down to the first by one place each. -/
def shift (path : Path) : Nat → Disk.Action Unit
  | 0 => pure ()
  | n + 1 => do
    match Disk.pathExists (backup path (n + 1)) (← get) with
    | .ok true => Disk.rename (backup path (n + 1)) (backup path (n + 2))
    | .ok false => pure ()
    | .error f => throw f
    shift path n

/-- Makes the file the first of `count` backups, and starts it anew. -/
def rotate (path : Path) (count : Nat) : Disk.Action Unit := do
  Disk.removeFile (backup path count)
  shift path (count - 1)
  Disk.rename path (backup path 1)
  Disk.touch path fileMode

/-- Carries out an operation; a refusal of the operating system is told with the given words. -/
def mentioning (words : String) (a : Disk.Action Unit) : DiskAct (Option String) := do
  match (a.run (← get)) with
  | (.ok (), d) =>
    set d
    return none
  | (.error f, d) =>
    set d
    match f with
    | .refused _ _ _ => return some (words ++ f.message)
    | .nulInPath => DiskAct.fault (.disk f)

def size (path : Path) : Disk.Action Int := do
  match Disk.read path (← get) with
  | .ok content => return content.length
  | .error f => throw f

def rotateIfLarge (t : Trail) : DiskAct (Option String) := do
  let isLarge : Disk.Action Bool := return decide (t.maxSizeBytes < (← size t.path))
  if t.backupCount < 1 ∧ (isLarge.run (← get)).1 matches .ok true then DiskAct.fault .noBackups
  else
    mentioning "Audit log rotation failed: " do
      if ← isLarge then rotate t.path t.backupCount.toNat

/-- Adds a line to the trail. The result is what there is to mention. -/
def addLine (t : Trail) (line : String) : DiskAct (Option String) := do
  match ← mentioning ("Cannot write audit log " ++ t.path.text ++ ": ") (append t.path line) with
  | some words => return some words
  | none => t.rotateIfLarge

def record (t : Trail) (actor : Actor) (e : AuditEvent) : DiskAct (Option String) := do
  if t.enabled then t.addLine ((t.stamp e).text actor ++ "\n") else return none

end Trail

end CatalogSteward
