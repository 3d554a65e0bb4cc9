import CatalogSteward.Number.Decimal
import CatalogSteward.Path
import CatalogSteward.Server.Condition
import CatalogSteward.Text.Case
import CatalogSteward.Text.Literal
import CatalogSteward.Version

/-!
# Errors

An error is what the program reports and answers for. Each has a cause, and its report has a message, a
number of details and perhaps a hint. The kind of a report fixes the exit code of the program.
-/

namespace CatalogSteward

/-! ### Reports -/

/-- What a report is about, with what only reports of that kind tell. -/
inductive Report.Kind where
  | generic
  | configuration
  | validation
  | unsupported (feature serverVersion : Option String)
  | execution (statement code : Option String) (cause : Option Condition)
  | missing (objectType objectName : Option String)
  deriving DecidableEq, Repr

def Report.Kind.name : Report.Kind → String
  | generic => "generic"
  | configuration => "configuration"
  | validation => "validation"
  | unsupported _ _ => "unsupported_feature"
  | execution _ _ _ => "execution"
  | missing _ _ => "not_found"

def Report.Kind.exitCode : Report.Kind → Nat
  | generic => 1
  | configuration => 2
  | validation => 3
  | unsupported _ _ => 4
  | execution _ _ _ => 5
  | missing _ _ => 6

structure Report where
  kind : Report.Kind
  message : String
  hint : Option String
  details : List String
  deriving DecidableEq, Repr

def Report.line (label : String) : Option String → List String
  | none => []
  | some s => if s = "" then [] else [label ++ ": " ++ s]

/-- A report of a failed statement or connection; the code and the statement are details too. -/
def Report.ofExecution (message : String) (statement code : Option String) (cause : Option Condition)
    (hint : Option String) (details : List String) : Report where
  kind := .execution statement code cause
  message := message
  hint := hint
  details := details ++ Report.line "SQLSTATE" code ++ Report.line "Statement" statement

/-! ### Causes -/

inductive NameProblem where
  | empty
  | holdsNul
  | tooLong
  deriving DecidableEq, Repr

inductive Error where
  | name (objectType value : String) (problem : NameProblem)
  | emptySchema (extension : String)
  | port (value : Int)
  | sslMode (value : String)
  | version (text : String)
  | resourceKind (kind : String) (known : List String)
  | rename (identity wanted : String)
  | unsupported (resource : String) (serverVersion : Int)
  | connection (target : String) (e : ServerError)
  | statement (context text : String) (e : ServerError)
  | notImportable (extension : String)
  | notInstalled (extension : String)
  | configMissing (path : Path)
  | configUnreadable (path : Path) (details : List String)
  | configMalformed (path : Path)
  | configNotMapping (path : Path) (typeName : String)
  | configInvalid (path : Path) (details : List String)
  | configPresent (path : Path)
  deriving DecidableEq, Repr

/-- The greatest number of bytes in a name; a server cuts longer ones off. -/
def nameLimit : Nat := 63

/-- The modes of encryption that a connection can have, in alphabetical order. -/
def sslModes : List String := ["allow", "disable", "prefer", "require", "verify-ca", "verify-full"]

def extensionFeature : String := "extension"

namespace Error

def refusal (message : String) (hint : Option String) (details : List String) : Report :=
  ⟨.validation, message, hint, details⟩

def nameReport (objectType value : String) (problem : NameProblem) : Report :=
  let title := Text.title objectType
  let limit := Decimal.natText nameLimit
  match problem with
  | .empty => refusal (title ++ " name cannot be empty") (some "Provide a valid name") []
  | .holdsNul =>
    refusal (title ++ " name contains a NUL byte") none ["Provided: " ++ Text.literal value]
  | .tooLong =>
    refusal
      (title ++ " name exceeds maximum length (" ++ Decimal.natText value.utf8ByteSize ++ " > " ++ limit
        ++ " bytes)")
      (some ("Use a name with " ++ limit ++ " or fewer bytes"))
      ["Provided: " ++ String.ofList (value.toList.take 50) ++ "..."]

def configuration (message : String) (hint : Option String) (details : List String) : Report :=
  ⟨.configuration, message, hint, details⟩

def report : Error → Report
  | name objectType value problem => nameReport objectType value problem
  | emptySchema extension =>
    refusal ("Cannot move extension '" ++ extension ++ "' to an empty schema name")
      (some "Set a schema that exists, or leave the schema unchanged") []
  | port value =>
    refusal ("Invalid port number: " ++ Decimal.text value) (some "Port must be between 1 and 65535") []
  | sslMode value =>
    refusal ("Invalid sslmode: " ++ value) (some ("Use one of: " ++ ", ".intercalate sslModes)) []
  | version text =>
    refusal ("Invalid PostgreSQL version: " ++ text)
      (some "Use a dotted version such as 16, 16.2 or 9.6.3") []
  | resourceKind kind known =>
    refusal ("Unknown resource kind: " ++ kind) (some ("Supported kinds: " ++ ", ".intercalate known)) []
  | rename identity wanted =>
    refusal ("Cannot rename extension '" ++ identity ++ "' to '" ++ wanted ++ "'")
      (some "Extensions cannot be renamed; drop and create the new one instead") []
  | unsupported resource serverVersion =>
    let version := Version.format serverVersion
    { kind := .unsupported (some extensionFeature) (some version)
      message := resource ++ " resource is not supported for this Postgres version (" ++ version ++ ")"
      hint := some ("Requires PostgreSQL " ++ Version.format Version.firstWithExtensions ++ " or later")
      details := [] }
  | connection target e =>
    .ofExecution ("Cannot connect to PostgreSQL at " ++ target) none e.condition.code? (some e.condition)
      (some "Check the postgres section of the configuration and PGSTATE_PASSWORD") [e.message]
  | statement context text e =>
    .ofExecution ("Error " ++ context ++ ": " ++ e.text) (some text) e.condition.code? (some e.condition)
      none []
  | notImportable extension =>
    { kind := .missing (some "extension") (some extension)
      message := "Cannot import extension '" ++ extension ++ "': it is not installed"
      hint := some "Check the name with: pgstate extension list"
      details := [] }
  | notInstalled extension =>
    { kind := .missing (some "extension") (some extension)
      message := "Extension '" ++ extension ++ "' is not installed"
      hint := some ("Create it with: pgstate extension create " ++ extension)
      details := [] }
  | configMissing path =>
    configuration ("Configuration file not found: " ++ path.text)
      (some "Create it with: pgstate config init") []
  | configUnreadable path details =>
    configuration ("Cannot read configuration file: " ++ path.text) (some "Check file permissions") details
  | configMalformed path => configuration ("Invalid YAML in configuration file: " ++ path.text) none []
  | configNotMapping path typeName =>
    configuration
      ("Configuration file must contain a mapping, got " ++ typeName ++ ": " ++ path.text) none []
  | configInvalid path details => configuration ("Invalid configuration in " ++ path.text) none details
  | configPresent path =>
    configuration ("Configuration file already exists: " ++ path.text)
      (some "Use --force to overwrite") []

def message (e : Error) : String := e.report.message

def exitCode (e : Error) : Nat := e.report.kind.exitCode

end Error

end CatalogSteward
