import CatalogSteward.Statement.Basic

/-!
# Reading statements

The server's grammar of the four statements. A text is a statement when one of four anchored forms
takes all of it, apart from one line feed at its end.
-/

namespace CatalogSteward.Statement

def after? (word : String) (cs : List Char) : Option (List Char) :=
  if word.toList.isPrefixOf cs then some (cs.drop word.toList.length) else none

/-- Reads an optional clause: a keyword between blanks and an identifier. -/
def clause? (keyword : String) (cs : List Char) : Option String × List Char :=
  match (after? (" " ++ keyword ++ " ") cs).bind Identifier.read? with
  | some (name, rest) => (some (String.ofList name), rest)
  | none => (none, cs)

def isEnd (cs : List Char) : Bool := cs = [] || cs = ['\n']

def create? (cs : List Char) : Option Statement := do
  let (name, cs) ← (after? "CREATE EXTENSION IF NOT EXISTS " cs).bind Identifier.read?
  let (schema, cs) := clause? "SCHEMA" cs
  let (version, cs) := clause? "VERSION" cs
  if isEnd cs then some (.create (String.ofList name) schema version) else none

def relocate? (cs : List Char) : Option Statement := do
  let (name, cs) ← (after? "ALTER EXTENSION " cs).bind Identifier.read?
  let (schema, cs) ← (after? " SET SCHEMA " cs).bind Identifier.read?
  if isEnd cs then some (.relocate (String.ofList name) (String.ofList schema)) else none

def reversion? (cs : List Char) : Option Statement := do
  let (name, cs) ← (after? "ALTER EXTENSION " cs).bind Identifier.read?
  let cs ← after? " UPDATE" cs
  let (version, cs) := clause? "TO" cs
  if isEnd cs then some (.reversion (String.ofList name) version) else none

def drop? (cs : List Char) : Option Statement := do
  let (name, cs) ← (after? "DROP EXTENSION " cs).bind Identifier.read?
  if isEnd cs then some (.drop (String.ofList name)) else none

/-- The statement that a text is, the four forms being tried in turn. -/
def read? (sql : String) : Option Statement :=
  let cs := sql.toList
  (create? cs).or ((relocate? cs).or ((reversion? cs).or (drop? cs)))

end CatalogSteward.Statement
