import CatalogSteward.Text.Literal
import CatalogSteward.Number.Decimal

/-!
# Catalog locks

One readers-writer lock guards the catalog of one database. Readers share it with each other, never with
a writer, and a writer that waits keeps new readers out. The counters are changed only under the lock's
own guard, so each of the functions below is one step.
-/

namespace CatalogSteward

inductive LockMode where
  | shared
  | exclusive
  deriving DecidableEq, Repr

def LockMode.name : LockMode → String
  | shared => "shared"
  | exclusive => "exclusive"

structure Lock where
  name : String
  readers : Nat
  writer : Bool
  writersWaiting : Nat
  deriving DecidableEq, Repr

/-- A release of a lock that is not held in that mode. -/
structure NotHeld where
  lock : String
  mode : LockMode
  deriving DecidableEq, Repr

def NotHeld.message (e : NotHeld) : String :=
  "Catalog lock " ++ Text.literal e.lock ++ " is not held in " ++ e.mode.name ++ " mode"

namespace Lock

def free (name : String) : Lock := ⟨name, 0, false, 0⟩

def admits (l : Lock) : LockMode → Bool
  | .shared => !l.writer && l.writersWaiting == 0
  | .exclusive => !l.writer && l.readers == 0

/-- A thread arrives; a writer counts as waiting until it holds the lock. -/
def arrive (l : Lock) : LockMode → Lock
  | .shared => l
  | .exclusive => { l with writersWaiting := l.writersWaiting + 1 }

def take (l : Lock) : LockMode → Lock
  | .shared => { l with readers := l.readers + 1 }
  | .exclusive => { l with writer := true, writersWaiting := l.writersWaiting - 1 }

def leave (l : Lock) : LockMode → Lock
  | .shared => l
  | .exclusive => { l with writersWaiting := l.writersWaiting - 1 }

def release (l : Lock) : LockMode → Except NotHeld Lock
  | .shared => if l.readers = 0 then .error ⟨l.name, .shared⟩ else .ok { l with readers := l.readers - 1 }
  | .exclusive => if l.writer then .ok { l with writer := false } else .error ⟨l.name, .exclusive⟩

/-- Whether a release in a mode wakes the threads that sleep: every release by a writer does, and that
of the last reader. -/
def wakes (after : Lock) : LockMode → Bool
  | .shared => after.readers == 0
  | .exclusive => true

def describe (l : Lock) : String :=
  "CatalogLock(name=" ++ Text.literal l.name ++ ", readers=" ++ Decimal.natText l.readers ++ ", writer="
    ++ (if l.writer then "True" else "False") ++ ")"

end Lock

end CatalogSteward
