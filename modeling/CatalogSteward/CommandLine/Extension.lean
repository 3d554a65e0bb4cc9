import CatalogSteward.CommandLine.Session

/-!
# Commands on extensions

Each command works within one session. Commands that change something leave a record of it in the audit
trail, whether it worked or not; what can be told apart from a failure is shown at the end.
-/

namespace CatalogSteward.CommandLine

structure Attempt where
  action : Action
  name : String
  target : String
  parameters : Json

def Attempt.record (a : Attempt) (failure : Option Error) : Act Unit := do
  Act.record {
    action := a.action
    success := failure.isNone
    timestamp := (← get).now
    targetDatabase := some a.target
    targetType := some "extension"
    targetName := some a.name
    parameters := a.parameters
    message := none
    error := failure.map Error.message
    sessionId := none
    correlationId := none }

/-- Carries out an operation; an error in it is recorded. -/
def Attempt.recordingErrors {α : Type} (a : Attempt) (op : Act α) : Act α := do
  match ← Act.outcome op with
  | .ok result => return result
  | .error failure =>
    match failure with
    | .error e => a.record (some e)
    | _ => pure ()
    throw failure

def cellText : Json → Option String
  | .null => none
  | j => some (Value.ofJson j).plain

def showExtension (title : String) (o : Observed) : Act Unit :=
  Act.summary title
    [("Extension", cellText o.name), ("Schema", cellText o.schema), ("Version", cellText o.version)]

def create (i : Invocation) (desired : Declared) : Act Unit := do
  let observed ← reported do
    let access ← audited i
    let attempt : Attempt := ⟨.create, desired.name, access.target, desired.toJson⟩
    let observed ← attempt.recordingErrors (session (Lifecycle.create access desired))
    attempt.record none
    return observed
  match observed with
  | some o => showExtension "Extension Created" o
  | none =>
    Act.say .warn ("Extension '" ++ desired.name ++ "' was created but could not be read back")
    exit 1

def display (i : Invocation) (name : String) : Act Unit := do
  let observed ← reported do
    let access ← loadAccess i
    session (Lifecycle.read access name)
  match observed with
  | some o => showExtension ("Extension '" ++ name ++ "'") o
  | none => exit 1

def probe (i : Invocation) (name : String) : Act Unit := do
  let found ← reported do
    let access ← loadAccess i
    session (Lifecycle.installed access name)
  Act.print (if found then "true" else "false")
  if !found then exit 1

/-- Updates an installed extension within a correlation. The result is what was known before and what
came of it. -/
def updateInstalled (access : Access) (desired : Declared) : Act (Observed × Lifecycle.Updated) := do
  match ← Lifecycle.read access desired.name with
  | none => Act.fail (.notInstalled desired.name)
  | some previous =>
    let attempt : Attempt := ⟨.update, desired.name, access.target,
      .object [("previous", previous.toJson), ("desired", desired.toJson)]⟩
    Act.correlated "extension_update" do
      let updated ← attempt.recordingErrors (Lifecycle.update access desired.name previous desired)
      match updated with
      | .unchanged => pure ()
      | .readBack _ => attempt.record none
      return (previous, updated)

/-- An update to the default version asks for the empty one. -/
def update (i : Invocation) (wanted : Declared) (latest : Bool) : Act Unit := do
  if latest ∧ wanted.version.any (· ≠ "") then
    Act.say .error "--ext-version and --latest cannot be used together"
    exit 3
  let desired := if latest then { wanted with version := some "" } else wanted
  let (previous, updated) ← reported do
    let access ← audited i
    session (updateInstalled access desired)
  match updated with
  | .unchanged =>
    Act.say .info ("Extension '" ++ desired.name ++ "' is already up to date")
    showExtension "Extension Updated" previous
  | .readBack (some o) => showExtension "Extension Updated" o
  | .readBack none =>
    Act.say .warn ("Extension '" ++ desired.name ++ "' disappeared during the update")
    exit 1

def delete (i : Invocation) (name : String) : Act Unit := do
  if i.shouldConfirm then
    if !(← Act.confirm ("Drop extension '" ++ name ++ "'?") false) then
      Act.say .warn "Operation cancelled"
      exit 0
  reported do
    let access ← audited i
    let attempt : Attempt := ⟨.delete, name, access.target, .object []⟩
    attempt.recordingErrors (session (Lifecycle.delete access name))
    attempt.record none
  Act.say .success ("Extension '" ++ name ++ "' dropped")

/-- The state of an extension as a document; a name that is a collection cannot be its key. -/
def stateText (o : Observed) : Except Fault String :=
  match Yaml.Tree.ofJson o.name with
  | .leaf l =>
    .ok (Yaml.write [(.text "extension", .mapping [(l, Yaml.Tree.ofJson o.toJson)])])
  | _ => .error .unusableKey

def adopt (i : Invocation) (name : String) : Act Unit := do
  let observed ← reported do
    let access ← audited i
    let observed ← session (Lifecycle.adopt access name)
    Attempt.record ⟨.adopt, name, access.target, observed.toJson⟩ none
    return observed
  match stateText observed with
  | .ok text => Act.happen (.raw text)
  | .error f => Act.fault f

/-- What a table shows of a name: a text, or nothing when there is no name. -/
def nameCell : Json → Except Fault String
  | .str s => .ok s
  | .null => .ok ""
  | _ => .error .unrenderable

/-- What a table shows of a schema or a version. A value that says nothing is left out, and any other
that is no text cannot be shown. -/
def detailCell : Json → Except Fault String
  | .str s => .ok s
  | .null | .bool false | .list [] | .object [] => .ok ""
  | .int n => if n = 0 then .ok "" else .error .unrenderable
  | .real x => if x.toInt? = some 0 then .ok "" else .error .unrenderable
  | _ => .error .unrenderable

def tableRow (o : Observed) : Except Fault (List String) := do
  return [← nameCell o.name, ← detailCell o.version, ← detailCell o.schema]

def list (i : Invocation) : Act Unit := do
  let (access, extensions) ← reported do
    let access ← loadAccess i
    let extensions ← session (Act.locked .shared access.target (Gateway.list access))
    return (access, extensions)
  if extensions.isEmpty then Act.say .info "No extensions installed"
  else
    match extensions.mapM tableRow with
    | .error f => Act.fault f
    | .ok rows =>
      Act.happen (.table ("Extensions on '" ++ access.settings.connection.database ++ "'")
        ["Extension", "Version", "Schema"] rows)

end CatalogSteward.CommandLine
