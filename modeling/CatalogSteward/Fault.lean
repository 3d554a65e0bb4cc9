import CatalogSteward.Disk
import CatalogSteward.Lock.Basic
import CatalogSteward.Server.Condition
import CatalogSteward.Yaml.Basic

/-!
# Faults

What can go wrong without being reported as an error: a fault ends the operation it occurs in and is
left to the caller. Some faults say what happened, others are only told apart.
-/

namespace CatalogSteward

inductive Fault where
  | unreadableText
  | document (fault : Yaml.Fault)
  | version (refusal : Decimal.Refusal)
  | unwritableNumber
  | disk (fault : Disk.Fault)
  | notHeld (lock : NotHeld)
  | deadlock (lock : String)
  | disruption (d : Disruption)
  | rowTooShort (expected got : Nat)
  | rowTooLong (expected : Nat)
  | noBackups
  | noName
  | notMapping
  | unusableKey
  | unrenderable
  | unknownAction (name : String)
  | unknownOutcome (name : String)
  deriving DecidableEq, Repr

/-- The greatest number that the escape of a character can give without being too large at all. -/
def escapeLimit : Nat := 0x7FFFFFFF

/-- What a fault of a document says, if it says anything. -/
def Yaml.Fault.message? : Yaml.Fault → Option String
  | escape code => if code ≤ escapeLimit then some "chr() arg not in range(0x110000)" else none
  | integer refusal => some refusal.message
  | real text => some ("could not convert string to float: " ++ Text.literal text)
  | calendar problem => some problem.message
  | _ => none

def Fault.message? : Fault → Option String
  | document f => f.message?
  | version refusal => some refusal.message
  | unwritableNumber => some Decimal.unwritableMessage
  | disk .nulInPath => some Disk.Fault.nulInPath.message
  | notHeld e => some e.message
  | disruption (.runtime message) => some message
  | rowTooShort expected got =>
    some ("not enough values to unpack (expected " ++ Decimal.natText expected ++ ", got "
      ++ Decimal.natText got ++ ")")
  | rowTooLong expected => some ("too many values to unpack (expected " ++ Decimal.natText expected ++ ")")
  | unknownAction name => some (Text.literal name ++ " is not a valid AuditEventType")
  | unknownOutcome name => some (Text.literal name ++ " is not a valid AuditResult")
  | _ => none

end CatalogSteward
