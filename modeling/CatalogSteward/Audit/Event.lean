import CatalogSteward.Audit.Redaction
import CatalogSteward.Calendar
import CatalogSteward.Json.Writer

/-!
# Audit events

An event tells who did what to which object of which database, and whether it worked. Its record is one
line of JSON in which secret parameters are replaced.
-/

namespace CatalogSteward

inductive Action where
  | create
  | update
  | delete
  | adopt
  deriving DecidableEq, Repr

namespace Action

def name : Action → String
  | create => "extension.create"
  | update => "extension.update"
  | delete => "extension.delete"
  | adopt => "extension.import"

def ofName? (s : String) : Option Action := [create, update, delete, adopt].find? fun a => a.name == s

end Action

/-- Who runs the program: a number, and a name if the number has one. -/
structure Actor where
  uid : Int
  username : Option String
  deriving DecidableEq, Repr

/-- The name of an actor; the number stands for one that is missing. -/
def Actor.name (a : Actor) : String := a.username.getD (Decimal.text a.uid)

def outcomeName (success : Bool) : String := if success then "success" else "failure"

def outcomeOfName? (s : String) : Option Bool := [true, false].find? fun b => outcomeName b == s

structure AuditEvent where
  action : Action
  success : Bool
  timestamp : Moment
  targetDatabase : Option String
  targetType : Option String
  targetName : Option String
  parameters : Json
  message : Option String
  error : Option String
  sessionId : Option String
  correlationId : Option String

namespace AuditEvent

def toJson (e : AuditEvent) (actor : Actor) : Json :=
  .object
    [("event_type", .str e.action.name), ("result", .str (outcomeName e.success)),
      ("timestamp", .str e.timestamp.isoText),
      ("actor", .object [("uid", .int actor.uid), ("username", .str actor.name)]),
      ("target", .object
        [("database", Json.ofOption e.targetDatabase), ("type", Json.ofOption e.targetType),
          ("name", Json.ofOption e.targetName)]),
      ("parameters", Redaction.redact e.parameters), ("message", Json.ofOption e.message),
      ("error", Json.ofOption e.error), ("session_id", Json.ofOption e.sessionId),
      ("correlation_id", Json.ofOption e.correlationId)]

def text (e : AuditEvent) (actor : Actor) : String := (e.toJson actor).render

end AuditEvent

end CatalogSteward
