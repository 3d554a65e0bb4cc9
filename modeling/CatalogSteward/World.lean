import CatalogSteward.Audit.Trail
import CatalogSteward.Console
import CatalogSteward.Lock.Registry
import CatalogSteward.Server.Catalog

/-!
# The world of the program

Everything that an operation can see or change: the files, the environment, the keyboard, the console,
the server with the connection to it, the locks, the audit trail, and a trace of all that was visible at
the edges, in order. An operation changes the world also when it fails.
-/

namespace CatalogSteward

inductive Happening where
  | line (toErrors : Bool) (markup : String)
  | raw (text : String)
  | panel (title body : String)
  | yaml (title text : String)
  | table (title : String) (columns : List String) (rows : List (List String))
  | ask (prompt : String)
  | echo (text : String) (newline : Bool)
  | connect (parameters : List (String × Json))
  | disconnect
  | sql (text : String) (parameters : Option (List Json))
  | lock (mode : LockMode) (key : String)
  | unlock (mode : LockMode) (key : String)

/-- What a server answers to a statement: what its catalog says, or what was laid down before. It can
close the connection once it has given its last rows. -/
inductive Reply where
  | regular
  | rows (rows : List (List Json))
  | lastRows (rows : List (List Json))
  | refused (r : Refusal)

/-- A server with its catalog, its version, and the answers laid down for the next statements and the
next attempts to connect. -/
structure Server where
  catalog : Catalog
  version : Int
  replies : List Reply
  connectReplies : List (Option Refusal)

/-- A connection, with the version that the server had when it was opened. -/
structure Link where
  closed : Bool
  version : Int
  deriving DecidableEq, Repr

/-- What a client keeps of the server: its connection, and the version once it is known. -/
structure Client where
  link : Option Link
  knownVersion : Option Int
  deriving DecidableEq, Repr

def Client.start : Client := ⟨none, none⟩

/-- A client whose connection has been closed by the server. -/
def Client.cutOff (c : Client) : Client :=
  { c with link := c.link.map fun link => { link with closed := true } }

structure World where
  disk : Disk
  environment : List (String × String)
  actor : Actor
  now : Moment
  tickets : Nat
  keyboard : List (Option String)
  console : Console
  server : Server
  client : Client
  locks : LockRegistry
  trail : Option Trail
  trace : List Happening

abbrev Act (α : Type) := ExceptT Failure (StateM World) α

namespace Act

def fail {α : Type} (e : Error) : Act α := throw (.error e)

def fault {α : Type} (f : Fault) : Act α := throw (.fault f)

def checked {α : Type} : Except Error α → Act α
  | .ok a => return a
  | .error e => fail e

def happen (h : Happening) : Act Unit := modify fun w => { w with trace := w.trace ++ [h] }

def onDisk {α : Type} (a : DiskAct α) : Act α := do
  let w ← get
  let (result, disk) := a.run w.disk
  set { w with disk := disk }
  liftM result

def outcome {α : Type} (a : Act α) : Act (Except Failure α) := fun w =>
  let (result, w) := a w
  (.ok result, w)

/-- Carries out `after` when an operation has ended, whether it failed or not. -/
def always {α : Type} (a : Act α) (after : Act Unit) : Act α := do
  let result ← outcome a
  after
  liftM result

def ticket : Act Nat := do
  let n := (← get).tickets + 1
  modify fun w => { w with tickets := n }
  return n

/-! ### The console -/

/-- Prints a line of a level, if the verbosity reaches it. -/
def say (level : Level) (message : String) : Act Unit := do
  if (← get).console.shows level then happen (.line level.toErrors (level.tag ++ " " ++ message))

def print (markup : String) : Act Unit := happen (.line false markup)

def summary (title : String) (items : List (String × Option String)) : Act Unit :=
  happen (.panel title (Console.summary items))

/-- The next line from the keyboard; nothing when it is interrupted or at its end. -/
def readLine (prompt : String) : Act (Option String) := do
  happen (.ask prompt)
  match (← get).keyboard with
  | [] => return none
  | line :: lines =>
    modify fun w => { w with keyboard := lines }
    return line

/-- Asks a question; an empty answer stands for the default, and no answer for no. -/
def confirm (message : String) (default : Bool) : Act Bool := do
  match ← readLine (Console.confirmation message default) with
  | none => return false
  | some line =>
    let answer := Text.lower (Text.strip line)
    return if answer = "" then default else answer = "y" ∨ answer = "yes"

/-! ### Locks -/

/-- Takes the lock of a database. A lock that does not admit the only thread never will. -/
def acquire (mode : LockMode) (key : String) : Act Unit := do
  modify fun w => { w with locks := w.locks.ensure key }
  let lock := (← get).locks.lock key
  if lock.admits mode then
    modify fun w => { w with locks := w.locks.put key ((lock.arrive mode).take mode) }
    happen (.lock mode key)
  else fault (.deadlock key)

def release (mode : LockMode) (key : String) : Act Unit := do
  match ((← get).locks.lock key).release mode with
  | .ok lock =>
    modify fun w => { w with locks := w.locks.put key lock }
    happen (.unlock mode key)
  | .error e => fault (.notHeld e)

/-- Carries out an operation while holding the lock of a database. -/
def locked {α : Type} (mode : LockMode) (key : String) (a : Act α) : Act α := do
  acquire mode key
  always a (release mode key)

/-! ### The audit trail -/

/-- Carries out an operation within a correlation of the process's trail. -/
def correlated {α : Type} (operation : String) (a : Act α) : Act α := do
  let id := Trail.correlationIdOf operation (← ticket)
  let onTrail (f : List String → List String) : Act Unit :=
    modify fun w => { w with trail := w.trail.map fun t => { t with correlations := f t.correlations } }
  onTrail (id :: ·)
  always a (onTrail (·.drop 1))

/-- Records an event in the process's trail; what there is to mention goes to the console. -/
def record (e : AuditEvent) : Act Unit := do
  match (← get).trail with
  | none => pure ()
  | some trail =>
    match ← onDisk (trail.record (← get).actor e) with
    | some words => say .debug words
    | none => pure ()

end Act

end CatalogSteward
