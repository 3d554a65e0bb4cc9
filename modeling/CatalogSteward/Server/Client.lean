import CatalogSteward.Settings.Access
import CatalogSteward.World

/-!
# Talking to a server

A connection is opened when it is first needed. A statement that the server refuses is an error that
tells what was being done; a disruption of the connection is a fault.
-/

namespace CatalogSteward

namespace Server

def row (name : String) (i : Installation) : List Json := [.str name, .str i.schema, .str i.version]

def queried (parameters : Option (List Json)) : Option String :=
  match parameters with
  | some (.str name :: _) => some name
  | _ => none

/-- What the catalog says to a text: rows for a query, and a changed catalog for a statement. -/
def regular (c : Catalog) (text : String) (parameters : Option (List Json)) :
    Except Refusal (List (List Json) × Catalog) :=
  let about : List (String × Installation) :=
    ((queried parameters).bind fun name => (c.installation? name).map fun i => (name, i)).toList
  if text = Query.all.text then .ok (c.sorted.map fun e => row e.1 e.2, c)
  else if text = (Query.entry "").text then .ok (about.map fun e => row e.1 e.2, c)
  else if text = (Query.presence "").text then .ok (about.map fun e => [.str e.1], c)
  else if "SELECT".toList.isPrefixOf text.toList then .ok ([], c)
  else (c.run text).map fun c => ([], c)

def answer (s : Server) (text : String) (parameters : Option (List Json)) :
    Except Refusal (List (List Json)) × Server :=
  let after := { s with replies := s.replies.drop 1 }
  match s.replies.head? with
  | some (.rows rows) | some (.lastRows rows) => (.ok rows, after)
  | some (.refused r) => (.error r, after)
  | some .regular | none =>
    match regular s.catalog text parameters with
    | .ok (rows, c) => (.ok rows, { after with catalog := c })
    | .error r => (.error r, after)

/-- Whether the server closes the connection with its next answer. -/
def hangsUp (s : Server) : Bool :=
  match s.replies.head? with
  | some (.lastRows _) => true
  | _ => false

end Server

namespace Client

/-- The parameters with which a connection is opened: every statement commits on its own, and
placeholders are numbered. -/
def connectParameters (access : Access) : List (String × Json) :=
  [("autocommit", .bool true), ("cursor_factory", .str "RawCursor")] ++ access.parameters

/-- The connection, which is opened if there is no open one. -/
def connection (access : Access) : Act Link := do
  match (← get).client.link with
  | some ⟨false, version⟩ => return ⟨false, version⟩
  | _ =>
    Act.say .debug ("Connecting to " ++ access.target)
    Act.happen (.connect (connectParameters access))
    let s := (← get).server
    modify fun w => { w with server := { s with connectReplies := s.connectReplies.drop 1 } }
    match s.connectReplies.head? with
    | some (some (.condition e)) => Act.fail (.connection access.target e)
    | some (some (.disruption d)) => Act.fault (.disruption d)
    | some none | none =>
      let link : Link := ⟨false, s.version⟩
      modify fun w => { w with client := { w.client with link := some link } }
      return link

def close : Act Unit := do
  match (← get).client.link with
  | some ⟨false, _⟩ => Act.happen .disconnect
  | _ => pure ()
  modify fun w => { w with client := { w.client with link := none } }

/-- The version of the server: the expected one if the settings give it, else the one that the server
told when the connection was opened. -/
def serverVersion (access : Access) : Act Int := do
  match (← get).client.knownVersion with
  | some n => return n
  | none =>
    let n ←
      match access.settings.connection.expectedVersion.filter (· ≠ "") with
      | some text =>
        match Version.parse text with
        | .ok n => pure n
        | .error (.notDotted text) => Act.fail (.version text)
        | .error (.notNumber r) => Act.fault (.version r)
      | none => pure (← connection access).version
    modify fun w => { w with client := { w.client with knownVersion := some n } }
    return n

/-- Makes sure that the server is new enough to have extensions. -/
def requireExtensions (access : Access) (resource : String) : Act Unit := do
  let n ← serverVersion access
  if !Version.supportsExtensions n then Act.fail (.unsupported resource n)

/-- Sends a text with its parameters, and gives the rows of the answer; `context` tells what is being
done. -/
def send (access : Access) (context text : String) (parameters : Option (List Json)) :
    Act (List (List Json)) := do
  Act.say .debug ("SQL: " ++ text)
  let _ ← connection access
  Act.happen (.sql text parameters)
  let server := (← get).server
  let (result, s) := server.answer text parameters
  modify fun w => { w with server := s, client := if server.hangsUp then w.client.cutOff else w.client }
  match result with
  | .ok rows => return rows
  | .error (.condition e) => Act.fail (.statement context text e)
  | .error (.disruption d) => Act.fault (.disruption d)

def execute (access : Access) (context : String) (s : Statement) : Act Unit := do
  let _ ← send access context s.text none

def fetch (access : Access) (context : String) (q : Query) : Act (List (List Json)) :=
  send access context q.text (q.parameters.map fun ps => ps.map Json.str)

end Client

end CatalogSteward
