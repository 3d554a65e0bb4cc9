import CatalogSteward.Identifier

/-!
# Statements about extensions

The four statements that change the extensions of a database. An absent schema or version leaves the
choice to the server, and so does an empty one.
-/

namespace CatalogSteward

inductive Statement where
  | create (name : String) (schema version : Option String)
  | relocate (name schema : String)
  | reversion (name : String) (version : Option String)
  | drop (name : String)
  deriving DecidableEq, Repr

namespace Statement

/-- A keyword and an identifier after it, unless the name is absent or empty. -/
def clause (keyword : String) : Option String → String
  | none => ""
  | some name => if name = "" then "" else " " ++ keyword ++ " " ++ Identifier.quote name

def text : Statement → String
  | create name schema version =>
    "CREATE EXTENSION IF NOT EXISTS " ++ Identifier.quote name ++ clause "SCHEMA" schema
      ++ clause "VERSION" version
  | relocate name schema =>
    "ALTER EXTENSION " ++ Identifier.quote name ++ " SET SCHEMA " ++ Identifier.quote schema
  | reversion name version =>
    "ALTER EXTENSION " ++ Identifier.quote name ++ " UPDATE" ++ clause "TO" version
  | drop name => "DROP EXTENSION " ++ Identifier.quote name

end Statement

/-! ### Queries -/

inductive Query where
  | presence (name : String)
  | entry (name : String)
  | all
  deriving DecidableEq, Repr

namespace Query

/-- The text of a query; the name is bound as its parameter. -/
def text : Query → String
  | presence _ => "SELECT extname FROM pg_catalog.pg_extension WHERE extname = $1"
  | entry _ =>
    "SELECT e.extname, n.nspname, e.extversion "
      ++ "FROM pg_catalog.pg_extension e, pg_catalog.pg_namespace n "
      ++ "WHERE n.oid = e.extnamespace AND e.extname = $1"
  | all =>
    "SELECT e.extname, n.nspname, e.extversion "
      ++ "FROM pg_catalog.pg_extension e, pg_catalog.pg_namespace n "
      ++ "WHERE n.oid = e.extnamespace "
      ++ "ORDER BY e.extname"

def parameters : Query → Option (List String)
  | presence name => some [name]
  | entry name => some [name]
  | all => none

end Query

end CatalogSteward
