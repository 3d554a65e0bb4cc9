import CatalogSteward.Extension.Lifecycle
import CatalogSteward.Proofs.Act

/-!
# Calls and their plans

An operation of the lifecycle asks the version gate, makes a plan from its arguments alone, and carries
the plan out in one section under the lock, request by request; an empty plan needs no lock. Each request
is one operation of the gateway. Here the six operations are shown to be of this form, and everything that
is proved about all of them is proved about the form.
-/

namespace CatalogSteward.Lifecycle
open Act

inductive Call where
  | create (desired : Declared)
  | installed (identity : String)
  | read (identity : String)
  | adopt (name : String)
  | update (identity : String) (previous : Observed) (desired : Declared)
  | delete (identity : String)

inductive Answer where
  | observed (o : Option Observed)
  | installed (b : Bool)
  | updated (u : Updated)
  | deleted

def Call.run (access : Access) : Call → Act Answer
  | .create desired => do return .observed (← Lifecycle.create access desired)
  | .installed identity => do return .installed (← Lifecycle.installed access identity)
  | .read identity => do return .observed (← Lifecycle.read access identity)
  | .adopt name => do return .observed (some (← Lifecycle.adopt access name))
  | .update identity previous desired => do
    return .updated (← Lifecycle.update access identity previous desired)
  | .delete identity => do
    Lifecycle.delete access identity
    return .deleted

/-! ### Requests -/

inductive Request where
  | create (desired : Declared)
  | find (name : String)
  | has (name : String)
  | relocate (name schema : String)
  | reversion (name : String) (version : Option String)
  | drop (name : String)
  deriving DecidableEq, Repr

/-- What the last request has told. -/
structure Reply where
  found : Option Observed
  present : Bool

def Reply.nothing : Reply := ⟨none, false⟩

def Request.perform (access : Access) : Request → Act Reply
  | .create desired => do
    Gateway.create access desired
    return .nothing
  | .find name => do return ⟨← Gateway.find access name, false⟩
  | .has name => do return ⟨none, ← Gateway.has access name⟩
  | .relocate name schema => do
    Gateway.relocate access name schema
    return .nothing
  | .reversion name version => do
    Gateway.reversion access name version
    return .nothing
  | .drop name => do
    Gateway.drop access name
    return .nothing

/-- Requests one after another; the reply to the last one counts. -/
def performAll (access : Access) : List Request → Reply → Act Reply
  | [], reply => return reply
  | q :: qs, _ => do performAll access qs (← q.perform access)

/-! ### Plans -/

namespace Call

def mode : Call → LockMode
  | .read _ => .shared
  | .adopt _ => .shared
  | _ => .exclusive

/-- The requests that a call makes while it holds the lock; no lock is needed for none. -/
def plan : Call → Except Error (List Request)
  | .create desired =>
    (Rules.checkName "extension" desired.name).map fun _ => [.create desired, .find desired.name]
  | .installed identity => .ok (if identity = "" then [] else [.has identity])
  | .read identity => .ok (if identity = "" then [] else [.find identity])
  | .adopt name => .ok (if name = "" then [] else [.find name])
  | .update identity previous desired =>
    (desired.changes identity previous).map fun changes =>
      if changes.isEmpty then []
      else changes.schema.toList.map (.relocate identity)
        ++ changes.version.toList.map (fun version => .reversion identity (some version))
        ++ [.find identity]
  | .delete identity => (Rules.checkName "extension" identity).map fun _ => [.drop identity]

/-- The check of a call, before it takes the lock. -/
def prepare (access : Access) (c : Call) : Act (List Request) := do
  Client.requireExtensions access Gateway.resourceName
  checked c.plan

def settle : Call → Act Answer
  | .installed _ => return .installed false
  | .update identity _ _ => do
    say .verbose ("Extension '" ++ identity ++ "' is up to date")
    return .updated .unchanged
  | .delete _ => return .deleted
  | _ => return .observed none

def noted (identity : String) (found : Option Observed) : Act (Option Observed) := do
  if found.isNone then say .warn ("PostgreSQL extension (" ++ identity ++ ") not found")
  return found

/-- What a call makes of the last reply, while it still holds the lock. -/
def conclude : Call → Reply → Act Answer
  | .create desired, reply => do return .observed (← noted desired.name reply.found)
  | .installed _, reply => return .installed reply.present
  | .read identity, reply => do return .observed (← noted identity reply.found)
  | .adopt name, reply => do return .observed (← noted name reply.found)
  | .update identity _ _, reply => do return .updated (.readBack (← noted identity reply.found))
  | .delete _, _ => return .deleted

/-- What a call returns in the end: an extension to be adopted must have been found. -/
def deliver : Call → Answer → Except Error Answer
  | .adopt name, .observed none => .error (.notImportable name)
  | _, answer => .ok answer

def body (access : Access) (c : Call) (qs : List Request) : Act Answer := do
  c.conclude (← performAll access qs .nothing)

end Call

theorem readHeld_eq (access : Access) (identity : String) :
    readHeld access identity = Gateway.find access identity >>= Call.noted identity := rfl

/-- A section whose result is returned as an answer. -/
theorem answer_locked {α : Type} (g : α → Answer) {mode : LockMode} {key : String} {a : Act α}
    {b : Act Answer} (h : (do return g (← a)) = b) :
    (do return g (← locked mode key a)) = locked mode key b := by
  rw [← h, ← map_eq_pure_bind, ← map_eq_pure_bind, map_locked]

/-- The form that all calls have. -/
def Call.staged (access : Access) (c : Call) : Act Answer := do
  let qs ← c.prepare access
  let answer ← if qs = [] then c.settle else locked c.mode access.target (c.body access qs)
  checked (c.deliver answer)

/-- All calls but the adoption return what their section comes to. -/
theorem checked_answer (a : Act Answer) : (a >>= fun answer => checked (.ok answer)) = a := bind_pure a

namespace Call

variable (access : Access)

theorem run_create (desired : Declared) :
    (Call.create desired).run access = (Call.create desired).staged access := by
  rw [staged, prepare, bind_assoc]
  simp only [run, Lifecycle.create, bind_assoc]
  refine congrArg (Client.requireExtensions access _ >>= ·) (funext fun _ => ?_)
  rw [plan]
  cases Rules.checkName "extension" desired.name with
  | error e => rfl
  | ok name =>
      refine (answer_locked Answer.observed ?_).trans (checked_answer _).symm
      simp only [body, performAll, Request.perform, bind_assoc, pure_bind, conclude, readHeld_eq]

theorem run_installed (identity : String) :
    (Call.installed identity).run access = (Call.installed identity).staged access := by
  rw [staged, prepare, bind_assoc]
  simp only [run, Lifecycle.installed, bind_assoc]
  refine congrArg (Client.requireExtensions access _ >>= ·) (funext fun _ => ?_)
  rw [plan]
  by_cases hempty : identity = ""
  · simp only [hempty, if_true]
    rfl
  · simp only [hempty, if_false]
    refine (answer_locked Answer.installed ?_).trans (checked_answer _).symm
    simp only [body, performAll, Request.perform, bind_assoc, pure_bind, conclude]

theorem run_read (identity : String) :
    (Call.read identity).run access = (Call.read identity).staged access := by
  rw [staged, prepare, bind_assoc]
  simp only [run, Lifecycle.read, bind_assoc]
  refine congrArg (Client.requireExtensions access _ >>= ·) (funext fun _ => ?_)
  rw [plan]
  by_cases hempty : identity = ""
  · simp only [hempty, if_true]
    rfl
  · simp only [hempty, if_false]
    refine (answer_locked Answer.observed ?_).trans (checked_answer _).symm
    simp only [body, performAll, Request.perform, bind_assoc, pure_bind, conclude, readHeld_eq]

theorem run_adopt (name : String) :
    (Call.adopt name).run access = (Call.adopt name).staged access := by
  rw [staged, prepare, bind_assoc]
  simp only [run, Lifecycle.adopt, Lifecycle.read, bind_assoc]
  refine congrArg (Client.requireExtensions access _ >>= ·) (funext fun _ => ?_)
  rw [plan]
  by_cases hempty : name = ""
  · simp only [hempty, if_true]
    rfl
  · have hbody : (do return Answer.observed (← readHeld access name)) =
        body access (.adopt name) [.find name] := by
      simp only [body, performAll, Request.perform, bind_assoc, pure_bind, conclude, readHeld_eq]
    have hsection : (do
        return Answer.observed (← locked .shared access.target (readHeld access name))) =
          locked .shared access.target (body access (.adopt name) [.find name]) :=
      answer_locked Answer.observed hbody
    simp only [hempty, if_false]
    change _ = (locked .shared access.target (body access (.adopt name) [.find name])) >>= _
    rw [← hsection, bind_assoc]
    refine congrArg (locked .shared access.target (readHeld access name) >>= ·) ?_
    funext found
    cases found <;> rfl

theorem run_update (identity : String) (previous : Observed) (desired : Declared) :
    (Call.update identity previous desired).run access = (Call.update identity previous desired).staged access := by
  rw [staged, prepare, bind_assoc]
  simp only [run, Lifecycle.update, bind_assoc]
  refine congrArg (Client.requireExtensions access _ >>= ·) (funext fun _ => ?_)
  rw [plan]
  cases desired.changes identity previous with
  | error e => rfl
  | ok changes =>
      obtain ⟨schema, version⟩ := changes
      rcases schema with _ | schema <;> rcases version with _ | version
      case none.none =>
        change ((say .verbose _ >>= _) >>= _) = ((say .verbose _ >>= _) >>= _)
        rw [bind_assoc, bind_assoc]
        rfl
      all_goals
        refine Eq.trans ?_ (checked_answer _).symm
        change ((locked _ _ _ >>= _) >>= _) = _
        rw [bind_assoc]
        refine answer_locked (fun o => Answer.updated (.readBack o)) ?_
        simp only [body, Changes.isEmpty, Option.isNone_some, Option.isNone_none, Bool.and_false,
          Bool.false_and, Bool.false_eq_true, if_false, Option.toList_some, Option.toList_none,
          List.map_cons, List.map_nil, List.cons_append, List.nil_append, performAll, Request.perform,
          bind_assoc, pure_bind, conclude, readHeld_eq]

theorem run_delete (identity : String) :
    (Call.delete identity).run access = (Call.delete identity).staged access := by
  rw [staged, prepare, bind_assoc]
  simp only [run, Lifecycle.delete, bind_assoc]
  refine congrArg (Client.requireExtensions access _ >>= ·) (funext fun _ => ?_)
  rw [plan]
  cases Rules.checkName "extension" identity with
  | error e => rfl
  | ok name =>
      refine (answer_locked (fun _ => Answer.deleted) ?_).trans (checked_answer _).symm
      simp only [body, performAll, Request.perform, bind_assoc, pure_bind, conclude]

/-- Every call is of one form. -/
theorem run_eq (c : Call) : c.run access = c.staged access := by
  cases c with
  | create desired => exact run_create access desired
  | installed identity => exact run_installed access identity
  | read identity => exact run_read access identity
  | adopt name => exact run_adopt access name
  | update identity previous desired => exact run_update access identity previous desired
  | delete identity => exact run_delete access identity

end Call

end CatalogSteward.Lifecycle
