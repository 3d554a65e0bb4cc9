import CatalogSteward.Path
import CatalogSteward.Number.Decimal

/-!
# Disks

A disk is a tree of directories and regular files below the working directory, together with whatever
is reached from it by absolute paths and by parent parts; the latter directories exist and start out
empty. Operations either succeed or fail with the problem that the operating system reports, and what
they changed before failing stays changed.
-/

namespace CatalogSteward

inductive Entry where
  | file (content : List UInt8) (mode : Nat)
  | directory
  deriving DecidableEq, Repr, Inhabited

/-- The stored entries, each under the names that lead to it. -/
structure Disk where
  entries : List (List String × Entry)
  deriving DecidableEq, Repr, Inhabited

namespace Disk

inductive Problem where
  | missing
  | notDirectory
  | isDirectory
  | alreadyExists
  | notEmpty
  | nameTooLong
  deriving DecidableEq, Repr

def Problem.number : Problem → Nat
  | missing => 2
  | alreadyExists => 17
  | notDirectory => 20
  | isDirectory => 21
  | nameTooLong => 36
  | notEmpty => 39

def Problem.description : Problem → String
  | missing => "No such file or directory"
  | alreadyExists => "File exists"
  | notDirectory => "Not a directory"
  | isDirectory => "Is a directory"
  | nameTooLong => "File name too long"
  | notEmpty => "Directory not empty"

/-- A refused operation with the path or the two paths it was about, or a path that cannot be passed to
the operating system at all. -/
inductive Fault where
  | refused (problem : Problem) (path : Path) (target : Option Path)
  | nulInPath
  deriving DecidableEq, Repr

def Fault.message : Fault → String
  | refused problem path target =>
    "[Errno " ++ Decimal.natText problem.number ++ "] " ++ problem.description ++ ": " ++ path.literal
      ++ (match target with
        | some target => " -> " ++ target.literal
        | none => "")
  | nulInPath => "embedded null byte"

abbrev Action (α : Type) := ExceptT Fault (StateM Disk) α

/-- The entry under a list of names. The working directory, its ancestors and the top are there without
being stored. -/
def lookup (d : Disk) (names : List String) : Option Entry :=
  match d.entries.find? fun e => e.1 == names with
  | some e => some e.2
  | none => if names.all (· == "..") ∨ names = ["/"] then some .directory else none

/-- Stores an entry, in place of the one that was there. -/
def store (d : Disk) (names : List String) (entry : Entry) : Disk :=
  if d.entries.any fun e => e.1 == names then
    { entries := d.entries.map fun e => if e.1 == names then (names, entry) else e }
  else { entries := d.entries ++ [(names, entry)] }

def erase (d : Disk) (names : List String) : Disk :=
  { entries := d.entries.filter fun e => e.1 != names }

def above (names : List String) : List String :=
  if names = ["/"] then names else if names.all (· == "..") then names ++ [".."] else names.dropLast

/-- The greatest number of bytes in one part of a path. -/
def partLimit : Nat := 255

def pathLimit : Nat := 4095

/-- Follows the parts of a path. All but the last must lead through directories. -/
def follow (d : Disk) (names : List String) : List String → Except Problem (List String)
  | [] => .ok names
  | part :: parts =>
    match d.lookup names with
    | none => .error .missing
    | some (.file _ _) => .error .notDirectory
    | some .directory =>
      if part = ".." then d.follow (above names) parts
      else if partLimit < part.utf8ByteSize then .error .nameTooLong
      else d.follow (names ++ [part]) parts

def locate (d : Disk) (p : Path) : Except Problem (List String) :=
  if pathLimit < p.text.utf8ByteSize then .error .nameTooLong
  else d.follow (if p.slashes = 0 then [] else ["/"]) p.parts

def entry (d : Disk) (p : Path) : Except Problem Entry :=
  match d.locate p with
  | .error problem => .error problem
  | .ok names =>
    match d.lookup names with
    | some entry => .ok entry
    | none => .error .missing

/-- Whether a path names something. Problems other than its absence are faults. -/
def pathExists (p : Path) (d : Disk) : Except Fault Bool :=
  if p.hasNul then .ok false
  else match d.entry p with
    | .ok _ => .ok true
    | .error .missing | .error .notDirectory => .ok false
    | .error problem => .error (.refused problem p none)

def isDirectory (p : Path) (d : Disk) : Except Fault Bool :=
  if p.hasNul then .ok false
  else match d.entry p with
    | .ok .directory => .ok true
    | .ok (.file _ _) => .ok false
    | .error .missing | .error .notDirectory => .ok false
    | .error problem => .error (.refused problem p none)

def isFile (p : Path) (d : Disk) : Bool :=
  match d.entry p with
  | .ok (.file _ _) => !p.hasNul
  | _ => false

def read (p : Path) (d : Disk) : Except Fault (List UInt8) :=
  if p.hasNul then .error .nulInPath
  else match d.entry p with
    | .ok (.file content _) => .ok content
    | .ok .directory => .error (.refused .isDirectory p none)
    | .error problem => .error (.refused problem p none)

def refuse {α : Type} (problem : Problem) (p : Path) : Action α := throw (.refused problem p none)

/-- The names of a path that can be passed to the operating system. -/
def locating (p : Path) : Action (List String) := do
  if p.hasNul then throw .nulInPath
  match (← get).locate p with
  | .ok names => pure names
  | .error problem => refuse problem p

/-- Changes the content of a file, which is created with the given mode when it is missing. -/
def update (p : Path) (mode : Nat) (f : List UInt8 → List UInt8) : Action Unit := do
  let names ← locating p
  match (← get).lookup names with
  | some .directory => refuse .isDirectory p
  | some (.file content mode) => modify (·.store names (.file (f content) mode))
  | none => modify (·.store names (.file (f []) mode))

def write (p : Path) (content : List UInt8) : Action Unit := update p 0o644 fun _ => content

def append (p : Path) (mode : Nat) (content : List UInt8) : Action Unit :=
  update p mode fun old => old ++ content

def touch (p : Path) (mode : Nat) : Action Unit := do
  match (← get).entry p with
  | .ok _ => if p.hasNul then throw .nulInPath
  | .error _ => update p mode id

def setMode (p : Path) (mode : Nat) : Action Unit := do
  let names ← locating p
  match (← get).lookup names with
  | some (.file content _) => modify (·.store names (.file content mode))
  | some .directory => pure ()
  | none => refuse .missing p

def makeDirectory (p : Path) : Action Unit := do
  let names ← locating p
  match (← get).lookup names with
  | some _ => refuse .alreadyExists p
  | none => modify (·.store names .directory)

def ensureDirectory (p : Path) : Action Unit := do
  try makeDirectory p
  catch fault =>
    match fault, (← get).isDirectory p with
    | .refused .missing _ _, _ => throw fault
    | .refused _ _ _, .ok true => pure ()
    | .refused _ _ _, .error other => throw other
    | _, _ => throw fault

/-- Makes a directory and those above it that are missing; at most `levels` of them are tried. -/
def ensureDirectories (levels : Nat) (p : Path) : Action Unit :=
  match levels with
  | 0 => ensureDirectory p
  | levels + 1 => do
    try ensureDirectory p
    catch fault =>
      match fault with
      | .refused .missing _ _ =>
        if p.parts = [] then throw fault
        else
          ensureDirectories levels p.parent
          ensureDirectory p
      | _ => throw fault

def makeDirectories (p : Path) : Action Unit := ensureDirectories p.parts.length p

/-- Removes a file; a missing one is no fault. -/
def removeFile (p : Path) : Action Unit := do
  if p.hasNul then throw .nulInPath
  match (← get).locate p with
  | .error .missing => pure ()
  | .error problem => refuse problem p
  | .ok names =>
    match (← get).lookup names with
    | none => pure ()
    | some .directory => refuse .isDirectory p
    | some (.file _ _) => modify (·.erase names)

def isOccupied (d : Disk) (names : List String) : Bool :=
  d.entries.any fun e => names.length < e.1.length && names.isPrefixOf e.1

def moveTree (d : Disk) (source target : List String) : Disk :=
  { entries := (d.erase target).entries.map fun e =>
      if source.isPrefixOf e.1 then (target ++ e.1.drop source.length, e.2) else e }

/-- Gives an entry another path. A file replaces a file, and a directory an empty directory. -/
def rename (p target : Path) : Action Unit := do
  let fail (problem : Problem) : Action Unit := throw (.refused problem p (some target))
  if p.hasNul ∨ target.hasNul then throw .nulInPath
  let d ← get
  match d.locate p, d.locate target with
  | .error problem, _ => fail problem
  | _, .error problem => fail problem
  | .ok source, .ok goal =>
    match d.lookup source, d.lookup goal with
    | none, _ => fail .missing
    | some (.file _ _), some .directory => fail .isDirectory
    | some .directory, some (.file _ _) => fail .notDirectory
    | some .directory, some .directory =>
      if source = goal then pure ()
      else if d.isOccupied goal then fail .notEmpty
      else set (d.moveTree source goal)
    | some (.file content mode), _ =>
      if source = goal then pure () else set ((d.erase source).store goal (.file content mode))
    | some .directory, none => set (d.moveTree source goal)

def files (d : Disk) : List (String × List UInt8) :=
  d.entries.filterMap fun e =>
    match e.2 with
    | .file content _ =>
      if e.1.head? = some "/" ∨ e.1.head? = some ".." then none
      else some ("/".intercalate e.1, content)
    | .directory => none

end Disk

end CatalogSteward
