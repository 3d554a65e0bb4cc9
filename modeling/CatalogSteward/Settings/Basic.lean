import CatalogSteward.Json.Basic
import CatalogSteward.Path
import CatalogSteward.Yaml.Writer

/-!
# Settings

What a configuration file tells: how to connect to the database, and where to keep the audit trail. A
value that the file does not give has a default.
-/

namespace CatalogSteward

/-- How to connect to the database. An expected version stands in for asking the server. -/
structure Connection where
  host : String
  port : Int
  database : String
  user : String
  sslMode : String
  connectTimeout : Int
  applicationName : String
  expectedVersion : Option String
  deriving DecidableEq, Repr

/-- Where the audit trail is kept, at which size it is rotated, and how many old files are kept. -/
structure AuditSettings where
  enabled : Bool
  logPath : Path
  maxSizeMb : Int
  backupCount : Int
  deriving DecidableEq, Repr

structure Settings where
  connection : Connection
  audit : AuditSettings
  deriving DecidableEq, Repr

def Connection.default : Connection where
  host := "127.0.0.1"
  port := 5432
  database := "postgres"
  user := "postgres"
  sslMode := "prefer"
  connectTimeout := 10
  applicationName := "pgstate"
  expectedVersion := none

def AuditSettings.default : AuditSettings where
  enabled := true
  logPath := .ofText "/var/log/pgstate/audit.log"
  maxSizeMb := 100
  backupCount := 10

def Settings.default : Settings := ⟨.default, .default⟩

/-- The key of the database, by which its lock is found. -/
def Connection.target (c : Connection) : String :=
  c.host ++ ":" ++ Decimal.text c.port ++ "/" ++ c.database

namespace Settings

def connectionFields (c : Connection) : List (String × Json) :=
  [("host", .str c.host), ("port", .int c.port), ("database", .str c.database), ("user", .str c.user),
    ("sslmode", .str c.sslMode), ("connect_timeout", .int c.connectTimeout),
    ("application_name", .str c.applicationName), ("expected_version", Json.ofOption c.expectedVersion)]

def auditFields (a : AuditSettings) : List (String × Json) :=
  [("enabled", .bool a.enabled), ("log_path", .str a.logPath.text), ("max_size_mb", .int a.maxSizeMb),
    ("backup_count", .int a.backupCount)]

def toJson (s : Settings) : Json :=
  .object [("postgres", .object (connectionFields s.connection)), ("audit", .object (auditFields s.audit))]

def present (fields : List (String × Json)) : List (Yaml.Leaf × Yaml.Tree) :=
  Yaml.Tree.ofJsonFields (fields.filter fun f => f.2 != .null)

def toYaml (s : Settings) : String :=
  Yaml.write
    [(.text "postgres", .mapping (present (connectionFields s.connection))),
      (.text "audit", .mapping (present (auditFields s.audit)))]

/-- Whether all numbers are within the limit of what can be written. -/
def isWritable (s : Settings) : Bool :=
  Decimal.isWritable s.connection.connectTimeout && Decimal.isWritable s.audit.maxSizeMb
    && Decimal.isWritable s.audit.backupCount

end Settings

end CatalogSteward
