import CatalogSteward.CommandLine.Arguments
import CatalogSteward.Extension.Descriptor
import CatalogSteward.Failure
import CatalogSteward.Invocation

/-!
# Commands

The arguments of the program name a group of commands and a command of it, which has options and perhaps
an operand of its own. Arguments that make no command end the program with a code of its own, and so does
a request for help.
-/

namespace CatalogSteward.CommandLine

/-- What is to be done about an extension or about the configuration. -/
inductive Task where
  | create (desired : Declared)
  | display (name : String)
  | probe (name : String)
  | update (desired : Declared) (latest : Bool)
  | delete (name : String)
  | adopt (name : String)
  | list
  | displaySettings
  | initSettings (force : Bool)
  | validateSettings
  deriving DecidableEq, Repr

inductive Command where
  | version
  | sampleSettings
  | task (i : Invocation) (t : Task)
  deriving DecidableEq, Repr

def usageError {α : Type} : Except Failure α := .error (.exit 2)

def helped {α : Type} : Except Failure α := .error (.exit 0)

/-- What options that are acted upon at once ask for: the first of them decides. -/
def Arguments.early? (a : Arguments) : Option (Except Failure Command) :=
  (a.given.find? fun g => g.1 == .help || g.1 == .version).map fun g =>
    if g.1 = .version then .ok .version else helped

/-! ### Commands of a group -/

def Arguments.invocation (a : Arguments) : Invocation :=
  .ofOptions (a.has .yes) (a.count .verbose) (a.has .quiet) (a.has .noColor)
    ((a.value? .config).map Path.ofText)

/-- The form of a command: its word, its options, whether it has a name as its operand, and what it is
made from. -/
structure Form where
  word : String
  switches : List Switch
  isNamed : Bool
  command : Arguments → String → Command

def Form.ofTask (word : String) (switches : List Switch) (isNamed : Bool)
    (task : Arguments → String → Task) : Form :=
  ⟨word, switches, isNamed, fun a name => .task a.invocation (task a name)⟩

def readingSwitches : List Switch := [.config, .verbose, .noColor]

def changingSwitches : List Switch := [.config, .verbose, .quiet, .noColor]

def Arguments.declared (a : Arguments) (name : String) : Declared :=
  ⟨name, a.value? .schema, a.value? .extensionVersion⟩

def extensionForms : List Form :=
  [.ofTask "create" (.schema :: .extensionVersion :: changingSwitches) true fun a name =>
      .create (a.declared name),
    .ofTask "show" readingSwitches true fun _ name => .display name,
    .ofTask "exists" readingSwitches true fun _ name => .probe name,
    .ofTask "update" (.schema :: .extensionVersion :: .latest :: changingSwitches) true fun a name =>
      .update (a.declared name) (a.has .latest),
    .ofTask "delete" (.yes :: changingSwitches) true fun _ name => .delete name,
    .ofTask "import" readingSwitches true fun _ name => .adopt name,
    .ofTask "list" readingSwitches false fun _ _ => .list]

def configForms : List Form :=
  [.ofTask "show" readingSwitches false fun _ _ => .displaySettings,
    .ofTask "init" [.config, .force, .noColor] false fun a _ => .initSettings (a.has .force),
    .ofTask "validate" readingSwitches false fun _ _ => .validateSettings,
    ⟨"example", [], false, fun _ _ => .sampleSettings⟩]

/-- A configuration file that is given must not be a directory. -/
def Arguments.checkConfig (a : Arguments) (d : Disk) : Except Failure Unit :=
  match (a.value? .config).filter (· ≠ "") with
  | none => .ok ()
  | some text =>
    let path := Path.ofText text
    if path.hasNul then .error (.fault (.disk .nulInPath))
    else match d.entry path with
      | .ok .directory => usageError
      | _ => .ok ()

def Form.read (f : Form) (d : Disk) (args : List String) : Except Failure Command :=
  match Arguments.read (.help :: f.switches) true args with
  | none => usageError
  | some a =>
    match a.early? with
    | some outcome => outcome
    | none => do
      a.checkConfig d
      match f.isNamed, a.operands with
      | true, [name] => .ok (f.command a name)
      | false, [] => .ok (f.command a "")
      | _, _ => usageError

/-! ### Groups -/

/-- Reads the options of a group and hands the word after them to `next`. A word that is not known is
read once more, now as an option. -/
def readGroup (switches : List Switch)
    (next : String → Option (List String → Except Failure Command)) (args : List String) :
    Except Failure Command :=
  let early? (args : List String) : Option (Except Failure Command) :=
    (Arguments.read switches false args).bind Arguments.early?
  match Arguments.read switches false args with
  | none => usageError
  | some a =>
    match a.early?, a.operands with
    | some outcome, _ => outcome
    | none, [] => usageError
    | none, word :: rest =>
      match next word with
      | some read => read rest
      | none => (early? (word :: rest)).getD usageError

/-- Reads the arguments of a group with commands of the given forms. -/
def readForms (forms : List Form) (d : Disk) : List String → Except Failure Command :=
  readGroup [.help] fun word => (forms.find? fun f => f.word == word).map fun f => f.read d

def Command.ofArguments (d : Disk) : List String → Except Failure Command :=
  readGroup [.help, .version] fun word =>
    if word = "extension" then some (readForms extensionForms d)
    else if word = "config" then some (readForms configForms d)
    else none

end CatalogSteward.CommandLine
