import CatalogSteward.CommandLine.Run

/-!
# The program

The command line for practice: the files are those of the machine, and the server is a new one that
lasts as long as the command, at a clock that stands still. The files that a command can need are read
before it runs, and those that it has changed are written afterwards.
-/

namespace CatalogSteward.Practice

/-- What a happening looks like on a terminal, and whether it goes to the error stream. -/
def shown : Happening → Option (Bool × String)
  | .line toErrors markup => some (toErrors, markup ++ "\n")
  | .raw text => some (false, text)
  | .panel title body => some (false, title ++ "\n" ++ body ++ "\n")
  | .yaml title text => some (false, title ++ "\n" ++ text)
  | .table title columns rows =>
    some (false, "\n".intercalate (title :: (columns :: rows).map "  ".intercalate) ++ "\n")
  | .echo text newline => some (false, if newline then text ++ "\n" else text)
  | .ask _ | .connect _ | .disconnect | .sql _ _ | .lock _ _ | .unlock _ _ => none

def question? (w : World) : Option String :=
  w.trace.findSome? fun h => match h with
    | .ask prompt => some prompt
    | _ => none

/-- The path under which an entry of a disk is found. -/
def pathOf (names : List String) : Path :=
  ⟨if names.head? = some "/" then 1 else 0, names.filter (· ≠ "/")⟩

/-- The files of a disk that another one does not have in the same form. -/
def changedFiles (before after : Disk) : List (Path × List UInt8 × Nat) :=
  after.entries.filterMap fun e =>
    match e.2 with
    | .file content mode => if before.entries.contains e then none else some (pathOf e.1, content, mode)
    | .directory => none

def configPath (args : List String) : Path :=
  match CommandLine.Command.ofArguments ⟨[]⟩ args with
  | .ok (.task i _) => i.configPath
  | _ => Settings.defaultPath

/-- The files of the audit trail that the settings on a disk ask for. -/
def auditPaths (d : Disk) (config : Path) : List Path :=
  match (Settings.loadOrDefault config).run d with
  | (.ok s, _) =>
    let path := s.audit.logPath
    path :: (List.range s.audit.backupCount.toNat).map fun n => Trail.backup path (n + 1)
  | _ => []

def world (d : Disk) (environment : List (String × String)) (user : Option String)
    (keyboard : List (Option String)) : World where
  disk := d
  environment := environment
  actor := ⟨0, user⟩
  now := ⟨⟨1970, 1, 1⟩, 0, 0, 0, 0, some 0⟩
  tickets := 0
  keyboard := keyboard
  console := .start
  server := ⟨.fresh, 160000, [], []⟩
  client := .start
  locks := []
  trail := none
  trace := []

/-- Copies a file of the machine to a disk, if it can be read. -/
def copyFile (d : Disk) (path : Path) : IO Disk := do
  try
    let bytes ← IO.FS.readBinFile ⟨path.text⟩
    let (_, d) := (Disk.makeDirectories path.parent).run d
    return ((Disk.write path bytes.toList).run d).2
  catch _ => return d

def rightsOf (bits : Nat) : IO.AccessRight := ⟨bits / 4 % 2 = 1, bits / 2 % 2 = 1, bits % 2 = 1⟩

def writeFile (path : Path) (content : List UInt8) (mode : Nat) : IO Unit := do
  IO.FS.createDirAll ⟨path.parent.text⟩
  IO.FS.writeBinFile ⟨path.text⟩ ⟨content.toArray⟩
  IO.setAccessRights ⟨path.text⟩ ⟨rightsOf (mode / 64), rightsOf (mode / 8), rightsOf mode⟩

/-- The answer to a question; none at the end of the input. -/
def readAnswer (prompt : String) : IO (List (Option String)) := do
  IO.print prompt
  (← IO.getStdout).flush
  let line ← (← IO.getStdin).getLine
  return if line.isEmpty then [] else [some line]

end CatalogSteward.Practice

open CatalogSteward CatalogSteward.Practice in
/-- Runs the program. A trial run shows whether there is a question to be answered first. -/
def main (args : List String) : IO UInt32 := do
  let config := configPath args
  let mut disk : Disk ← copyFile (← copyFile ⟨[]⟩ Access.variableFile) config
  for path in auditPaths disk config do disk ← copyFile disk path
  let password ← IO.getEnv Access.passwordVariable.toUpper
  let environment := (password.map fun p => (Access.passwordVariable, p)).toList
  let start := world disk environment (← IO.getEnv "USER")
  let (_, trial) := CommandLine.run args (start [])
  let keyboard ← match question? trial with
    | some prompt => readAnswer prompt
    | none => pure []
  let (result, after) := CommandLine.run args (start keyboard)
  for h in after.trace do
    match shown h with
    | some (true, text) => IO.eprint text
    | some (false, text) => IO.print text
    | none => pure ()
  for (path, content, mode) in changedFiles disk after.disk do writeFile path content mode
  return (CommandLine.exitCode result).toUInt32
