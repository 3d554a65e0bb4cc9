import CatalogSteward.Lock.Basic

/-!
# Threads at a lock

Any number of threads meet at one lock. A thread that is not admitted sleeps until it is notified and is
admitted then; it may also wake without having been notified. A release that wakes the sleepers notifies
all of them. A wait can be aborted.
-/

namespace CatalogSteward

inductive Phase where
  | asleep (mode : LockMode) (notified : Bool)
  | holding (mode : LockMode)
  deriving DecidableEq, Repr

/-- A lock with the threads that wait for it or hold it. -/
structure Threads where
  lock : Lock
  phases : List (Nat × Phase)
  deriving DecidableEq, Repr

namespace Threads

def start (name : String) : Threads := ⟨.free name, []⟩

def phase? (s : Threads) (thread : Nat) : Option Phase :=
  (s.phases.find? fun p => p.1 == thread).map (·.2)

def put (s : Threads) (thread : Nat) (phase : Phase) : Threads :=
  { s with phases := s.phases.map fun p => if p.1 = thread then (thread, phase) else p }

def remove (s : Threads) (thread : Nat) : Threads :=
  { s with phases := s.phases.filter fun p => p.1 ≠ thread }

/-- A thread that is at the lock takes it if it is admitted, and sleeps otherwise. -/
def attempt (s : Threads) (thread : Nat) (mode : LockMode) : Threads :=
  if s.lock.admits mode then { s with lock := s.lock.take mode }.put thread (.holding mode)
  else s.put thread (.asleep mode false)

def acquire (s : Threads) (thread : Nat) (mode : LockMode) : Threads :=
  attempt ⟨s.lock.arrive mode, s.phases ++ [(thread, .asleep mode false)]⟩ thread mode

def wake (s : Threads) (thread : Nat) : Threads :=
  match s.phase? thread with
  | some (.asleep mode _) => s.attempt thread mode
  | _ => s

def notifyAll (s : Threads) : Threads :=
  { s with phases := s.phases.map fun p => match p.2 with
      | .asleep mode _ => (p.1, .asleep mode true)
      | .holding _ => p }

/-- Gives back a hold of the lock, and notifies the sleepers if that wakes them. -/
def giveBack (s : Threads) (mode : LockMode) : Except NotHeld Threads := do
  let lock ← s.lock.release mode
  let s := { s with lock := lock }
  return if lock.wakes mode then s.notifyAll else s

def release (s : Threads) (thread : Nat) : Except NotHeld Threads :=
  match s.phase? thread with
  | some (.holding mode) => (s.remove thread).giveBack mode
  | _ => .ok s

def abort (s : Threads) (thread : Nat) : Threads :=
  match s.phase? thread with
  | some (.asleep mode _) => { s with lock := s.lock.leave mode }.remove thread
  | _ => s

/-- Releases a hold in a mode, no matter which thread has it. -/
def releaseAny (s : Threads) (mode : LockMode) : Except NotHeld Threads :=
  match s.phases.find? fun p => p.2 == .holding mode with
  | some (thread, _) => s.release thread
  | none => s.giveBack mode

def notified (s : Threads) : List Nat :=
  s.phases.filterMap fun p => match p.2 with
    | .asleep _ true => some p.1
    | _ => none

def settle (s : Threads) : Threads := s.notified.foldl wake s

def sleepers (s : Threads) (mode : LockMode) : Nat :=
  s.phases.countP fun p => match p.2 with
    | .asleep m _ => m == mode
    | .holding _ => false

end Threads

end CatalogSteward
