import CatalogSteward.Text.Blank

/-!
# Conditions that a server reports

A statement or an attempt to connect can fail with a condition. Most conditions have a code of five
characters. A connection can also be disrupted in ways that are no condition at all.
-/

namespace CatalogSteward

inductive Condition where
  | undefinedFile
  | insufficientPrivilege
  | syntaxError
  | duplicateObject
  | featureNotSupported
  | dependentObjectsStillExist
  | undefinedObject
  | invalidSchemaName
  | lockNotAvailable
  | serializationFailure
  | adminShutdown
  | queryCanceled
  | uniqueViolation
  | invalidParameterValue
  | anyError
  | databaseError
  | operationalError
  | interfaceError
  | programmingError
  | notSupportedError
  | integrityError
  | dataError
  | internalError
  deriving DecidableEq, Repr

namespace Condition

def names : List (String × Condition) :=
  [("UndefinedFile", undefinedFile), ("InsufficientPrivilege", insufficientPrivilege),
    ("SyntaxError", syntaxError), ("DuplicateObject", duplicateObject),
    ("FeatureNotSupported", featureNotSupported),
    ("DependentObjectsStillExist", dependentObjectsStillExist), ("UndefinedObject", undefinedObject),
    ("InvalidSchemaName", invalidSchemaName), ("LockNotAvailable", lockNotAvailable),
    ("SerializationFailure", serializationFailure), ("AdminShutdown", adminShutdown),
    ("QueryCanceled", queryCanceled), ("UniqueViolation", uniqueViolation),
    ("InvalidParameterValue", invalidParameterValue), ("Error", anyError),
    ("DatabaseError", databaseError), ("OperationalError", operationalError),
    ("InterfaceError", interfaceError), ("ProgrammingError", programmingError),
    ("NotSupportedError", notSupportedError), ("IntegrityError", integrityError),
    ("DataError", dataError), ("InternalError", internalError)]

def ofName? (name : String) : Option Condition :=
  (names.find? fun entry => entry.1 == name).map (·.2)

def name (c : Condition) : String :=
  match names.find? fun entry => entry.2 == c with
  | some entry => entry.1
  | none => ""

def code? : Condition → Option String
  | undefinedFile => some "58P01"
  | insufficientPrivilege => some "42501"
  | syntaxError => some "42601"
  | duplicateObject => some "42710"
  | featureNotSupported => some "0A000"
  | dependentObjectsStillExist => some "2BP01"
  | undefinedObject => some "42704"
  | invalidSchemaName => some "3F000"
  | lockNotAvailable => some "55P03"
  | serializationFailure => some "40001"
  | adminShutdown => some "57P01"
  | queryCanceled => some "57014"
  | uniqueViolation => some "23505"
  | invalidParameterValue => some "22023"
  | _ => none

end Condition

structure ServerError where
  condition : Condition
  message : String
  deriving DecidableEq, Repr

/-- The message without blanks around it, or the name of the condition when nothing is left. -/
def ServerError.text (e : ServerError) : String :=
  let message := Text.strip e.message
  if message = "" then e.condition.name else message

inductive Disruption where
  | warning
  | runtime (message : String)
  | unknownName
  | noVersion
  deriving DecidableEq, Repr

inductive Refusal where
  | condition (e : ServerError)
  | disruption (d : Disruption)
  deriving DecidableEq, Repr

end CatalogSteward
