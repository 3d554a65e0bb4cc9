import CatalogSteward.Lock.Basic

/-!
# The locks of a process

Every database has one lock, which is made when it is first asked for.
-/

namespace CatalogSteward

/-- The locks made so far, in the order in which they were made, each under the key of its database. -/
abbrev LockRegistry := List (String × Lock)

namespace LockRegistry

/-- The lock under a key; a key that has none stands for a free lock. -/
def lock (r : LockRegistry) (key : String) : Lock :=
  match r.find? fun e => e.1 == key with
  | some e => e.2
  | none => .free key

def ensure (r : LockRegistry) (key : String) : LockRegistry :=
  if r.any fun e => e.1 == key then r else r ++ [(key, .free key)]

def put (r : LockRegistry) (key : String) (lock : Lock) : LockRegistry :=
  r.map fun e => if e.1 = key then (key, lock) else e

def position (r : LockRegistry) (key : String) : Nat := r.findIdx fun e => e.1 == key

end LockRegistry

end CatalogSteward
