import CatalogSteward.CommandLine.Command
import CatalogSteward.CommandLine.Configuration
import CatalogSteward.CommandLine.Extension

/-!
# Running the program

The arguments are read, and the command that they make is carried out. The program ends with an exit
code: that of the way it was left, or one for everything that went wrong without being reported.
-/

namespace CatalogSteward.CommandLine

def programVersion : String := "0.3.0"

def perform (i : Invocation) : Task → Act Unit
  | .create desired => create i desired
  | .display name => display i name
  | .probe name => probe i name
  | .update desired latest => update i desired latest
  | .delete name => delete i name
  | .adopt name => adopt i name
  | .list => list i
  | .displaySettings => displaySettings i
  | .initSettings force => initSettings i force
  | .validateSettings => validateSettings i

def Command.perform : Command → Act Unit
  | .version => Act.happen (.echo ("pgstate version " ++ programVersion) true)
  | .sampleSettings => Act.happen (.echo Settings.exampleText false)
  | .task i t => do
    modify fun w => { w with console := i.console }
    CommandLine.perform i t

def run (args : List String) : Act Unit := do
  match Command.ofArguments (← get).disk args with
  | .ok command => command.perform
  | .error failure => throw failure

def exitCode : Except Failure Unit → Nat
  | .ok () => 0
  | .error (.exit code) => code
  | .error _ => 1

end CatalogSteward.CommandLine
