import CatalogSteward.Extension.Lifecycle
import CatalogSteward.Invocation

/-!
# Sessions of a command

A command loads the configuration, talks to the server through one client, and reports errors on the
console before it leaves with their exit code. Whatever happens, the connection is closed in the end.
-/

namespace CatalogSteward.CommandLine

def exit {α : Type} (code : Nat) : Act α := throw (.exit code)

def reportError (r : Report) : Act Unit := do
  Act.say .error r.message
  for detail in r.details do Act.print ("  [dim]" ++ Markup.escape detail ++ "[/dim]")
  match r.hint.filter (· ≠ "") with
  | some hint => Act.say .hint hint
  | none => pure ()

/-- Carries out an operation; an error in it is reported, and the program left with its exit code. -/
def reported {α : Type} (op : Act α) : Act α := do
  match ← Act.outcome op with
  | .ok result => return result
  | .error (.error e) =>
    reportError e.report
    exit e.exitCode
  | .error failure => throw failure

def loadAccess (i : Invocation) : Act Access := do
  Act.onDisk (Access.load i.configPath (← get).environment)

/-- Loads the configuration and starts the audit trail that it asks for. -/
def audited (i : Invocation) : Act Access := do
  let access ← loadAccess i
  let trail := Trail.ofSettings access.settings.audit (← Act.ticket)
  modify fun w => { w with trail := some trail }
  return access

def session {α : Type} (op : Act α) : Act α := do
  modify fun w => { w with client := .start }
  Act.always op Client.close

end CatalogSteward.CommandLine
