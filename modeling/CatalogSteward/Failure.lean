import CatalogSteward.Error
import CatalogSteward.Fault

/-!
# Failures

An operation that does not return ends with an error that is to be reported, with a fault, or by leaving
the program with an exit code.
-/

namespace CatalogSteward

inductive Failure where
  | error (e : Error)
  | fault (f : Fault)
  | exit (code : Nat)
  deriving DecidableEq, Repr

/-- An operation on a disk that may fail in any way. -/
abbrev DiskAct (α : Type) := ExceptT Failure (StateM Disk) α

namespace DiskAct

def fault {α : Type} (f : Fault) : DiskAct α := throw (.fault f)

def ofAction {α : Type} (a : Disk.Action α) : DiskAct α := ExceptT.adapt (fun f => .fault (.disk f)) a

/-- The answer to a question about the disk. -/
def ask {α : Type} (question : Disk → Except Disk.Fault α) : DiskAct α := do
  match question (← get) with
  | .ok a => return a
  | .error f => fault (.disk f)

end DiskAct

end CatalogSteward
