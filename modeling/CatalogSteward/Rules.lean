import CatalogSteward.Error

/-!
# Rules for names and settings

The checks that are made before anything is sent to a server. Names are quoted wherever they are used,
so only their length and the null character matter.
-/

namespace CatalogSteward.Rules

def checkName (objectType value : String) : Except Error String :=
  if value = "" then .error (.name objectType value .empty)
  else if value.toList.contains '\x00' then .error (.name objectType value .holdsNul)
  else if nameLimit < value.utf8ByteSize then .error (.name objectType value .tooLong)
  else .ok value

/-- Checks the schema that an extension is to be moved to. -/
def checkSchemaChange (extension schema : String) : Except Error String :=
  if schema = "" then .error (.emptySchema extension) else checkName "schema" schema

def checkPort (value : Int) : Except Error Int :=
  if 1 ≤ value ∧ value ≤ 65535 then .ok value else .error (.port value)

def checkSslMode (value : String) : Except Error String :=
  if sslModes.contains value then .ok value else .error (.sslMode value)

/-- Checks the version of a server, and drops the blanks around it. -/
def checkVersion (text : String) : Except Error String :=
  if Version.isDotted text then .ok (Text.strip text) else .error (.version text)

end CatalogSteward.Rules
