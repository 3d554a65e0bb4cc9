import CatalogSteward.Yaml.Tag
import CatalogSteward.Yaml.Token

/-!
# The tree of a document

The tokens of a text form at most one document, whose content is a tree of nodes. An alias is replaced
by the node that carries its anchor; within that node itself it stands for the node that is being read.
-/

namespace CatalogSteward.Yaml

inductive Node where
  | scalar (tag : Tag) (text : String)
  | list (tag : Tag) (items : List Node)
  | mapping (tag : Tag) (entries : List (Node × Node))
  | enclosing (isMapping : Bool)
  deriving Inhabited, Repr

namespace Node

/-- What is known of an anchor: the node that carries it, or that it is being read. -/
inductive Anchored where
  | node (n : Node)
  | reading (isMapping : Bool)
  deriving Repr

/-- What is left to be read, the tag handles of the document, and the anchors so far. -/
structure Source where
  tokens : List Token
  handles : List (String × String)
  anchors : List (String × Anchored)
  deriving Repr

abbrev Parse (α : Type) := StateT Source (Except Problem) α

def fail {α : Type} : Parse α := throw .malformed

def peek : Parse (Option Token) := do
  match (← get).tokens with
  | [] => return none
  | .broken fault :: _ => throw (.fault fault)
  | t :: _ => return some t

def advance : Parse Unit := modify fun s => { s with tokens := s.tokens.drop 1 }

def accept (t : Token) : Parse Bool := do
  if (← peek) = some t then
    advance
    return true
  else return false

def expect (t : Token) : Parse Unit := do
  if !(← accept t) then fail

def nextIs (ts : List Token) : Parse Bool := do
  match ← peek with
  | some t => return ts.contains t
  | none => return false

def empty : Node := .scalar .null ""

/-! ### Properties of nodes -/

def acceptAnchor : Parse (Option String) := do
  match ← peek with
  | some (.anchor name) =>
    advance
    return some name
  | _ => return none

def acceptTag : Parse (Option (Option String × String)) := do
  match ← peek with
  | some (.tag handle suffix) =>
    advance
    return some (handle, suffix)
  | _ => return none

def tagText (handle : Option String) (suffix : String) : Parse String := do
  match handle with
  | none => return suffix
  | some handle =>
    match (← get).handles.find? fun h => h.1 == handle with
    | some (_, text) => return text ++ suffix
    | none => fail

/-- The anchor and the tag before a node, in either order. A lone exclamation mark is no tag, but it is
remembered. -/
def properties : Parse (Option String × Option String) := do
  let early ← acceptAnchor
  let tag ← acceptTag
  let anchor ← if early.isNone && tag.isSome then acceptAnchor else pure early
  match tag with
  | none => return (anchor, none)
  | some (handle, suffix) => return (anchor, some (← tagText handle suffix))

def bindAnchor (anchor : Option String) (value : Anchored) : Parse Unit := do
  match anchor with
  | none => pure ()
  | some name =>
    modify fun s => { s with anchors := (name, value) :: s.anchors.filter fun a => a.1 != name }

def checkAnchor (anchor : Option String) : Parse Unit := do
  match anchor with
  | none => pure ()
  | some name => if (← get).anchors.any fun a => a.1 == name then fail

def scalarTag (plain : Bool) (tag : Option String) (text : String) : Tag :=
  match tag with
  | none => if plain then Tag.ofPlain text.toList else .text
  | some "!" => Tag.ofPlain text.toList
  | some name => Tag.ofName name

def collectionTag (default : Tag) (tag : Option String) : Tag :=
  match tag with
  | none | some "!" => default
  | some name => Tag.ofName name

def referenced (name : String) : Parse Node := do
  match (← get).anchors.find? fun a => a.1 == name with
  | some (_, .node n) => return n
  | some (_, .reading isMapping) => return .enclosing isMapping
  | none => fail

/-- The node that is read, or the empty one if one of the given tokens comes next. -/
def emptyBefore (ts : List Token) (read : Parse Node) : Parse Node := do
  if ← nextIs ts then return empty else read

/-! ### Collections -/

/-- Where a node stands: its kind decides which collections can start there. -/
inductive Place where
  | flow
  | block
  | mappingEntry
  deriving DecidableEq, Repr

mutual

/-- Reads a node; `steps` bounds the depth of reading and the number of siblings. -/
def node (place : Place) : Nat → Parse Node
  | 0 => fail
  | steps + 1 => do
    if let some (.reference name) ← peek then
      advance
      return ← referenced name
    let (anchor, tag) ← properties
    let collection (isMapping : Bool) (read : Parse Node) : Parse Node := do
      checkAnchor anchor
      bindAnchor anchor (.reading isMapping)
      let n ← read
      bindAnchor anchor (.node n)
      return n
    let listTag := collectionTag .list tag
    let mappingTag := collectionTag .mapping tag
    match ← peek, place with
    | some (.scalar plain text), _ =>
      advance
      let n := Node.scalar (scalarTag plain tag text) text
      checkAnchor anchor
      bindAnchor anchor (.node n)
      return n
    | some .flowSequenceStart, _ =>
      advance
      collection false (return .list listTag (← flowItems true steps))
    | some .flowMappingStart, _ =>
      advance
      collection true (return .mapping mappingTag (← flowEntries true steps))
    | some .blockEntry, .mappingEntry => collection false (return .list listTag (← openItems steps))
    | some .blockSequenceStart, .block | some .blockSequenceStart, .mappingEntry =>
      advance
      collection false (return .list listTag (← blockItems steps))
    | some .blockMappingStart, .block | some .blockMappingStart, .mappingEntry =>
      advance
      collection true (return .mapping mappingTag (← blockEntries steps))
    | _, _ =>
      if anchor.isNone && tag.isNone then fail
      else
        let n := Node.scalar (scalarTag true tag "") ""
        checkAnchor anchor
        bindAnchor anchor (.node n)
        return n

/-- The items of a block sequence with an end of its own. -/
def blockItems : Nat → Parse (List Node)
  | 0 => fail
  | steps + 1 => do
    if ← accept .blockEntry then
      let item ← emptyBefore [.blockEntry, .blockEnd] (node .block steps)
      return item :: (← blockItems steps)
    expect .blockEnd
    return []

/-- The items of a block sequence that ends with the entry it belongs to. -/
def openItems : Nat → Parse (List Node)
  | 0 => fail
  | steps + 1 => do
    if ← accept .blockEntry then
      let item ← emptyBefore [.blockEntry, .key, .value, .blockEnd] (node .block steps)
      return item :: (← openItems steps)
    return []

def blockEntries : Nat → Parse (List (Node × Node))
  | 0 => fail
  | steps + 1 => do
    if ← accept .key then
      let key ← emptyBefore [.key, .value, .blockEnd] (node .mappingEntry steps)
      let value ←
        if ← accept .value then emptyBefore [.key, .value, .blockEnd] (node .mappingEntry steps)
        else pure empty
      return (key, value) :: (← blockEntries steps)
    expect .blockEnd
    return []

/-- The items of a flow sequence. An item with a key mark is a mapping of one entry. -/
def flowItems (first : Bool) : Nat → Parse (List Node)
  | 0 => fail
  | steps + 1 => do
    if ← accept .flowSequenceEnd then return []
    if !first then
      expect .flowEntry
      if ← accept .flowSequenceEnd then return []
    let item ←
      if ← accept .key then
        let key ← emptyBefore [.value, .flowEntry, .flowSequenceEnd] (node .flow steps)
        let value ←
          if ← accept .value then emptyBefore [.flowEntry, .flowSequenceEnd] (node .flow steps)
          else pure empty
        pure (Node.mapping .mapping [(key, value)])
      else node .flow steps
    return item :: (← flowItems false steps)

/-- The entries of a flow mapping. An entry without a key mark is a key alone. -/
def flowEntries (first : Bool) : Nat → Parse (List (Node × Node))
  | 0 => fail
  | steps + 1 => do
    if ← accept .flowMappingEnd then return []
    if !first then
      expect .flowEntry
      if ← accept .flowMappingEnd then return []
    let entry ←
      if ← accept .key then
        let key ← emptyBefore [.value, .flowEntry, .flowMappingEnd] (node .flow steps)
        let value ←
          if ← accept .value then emptyBefore [.flowEntry, .flowMappingEnd] (node .flow steps)
          else pure empty
        pure (key, value)
      else pure (← node .flow steps, empty)
    return entry :: (← flowEntries false steps)

end

/-! ### Documents -/

def defaultHandles : List (String × String) := [("!", "!"), ("!!", Tag.namespaceText)]

/-- Reads the directives before a document; `version` tells that its version is known. -/
def directives (version : Bool) (handles : List (String × String)) :
    List Token → Except Problem (List (String × String) × List Token)
  | .directive (.version major) :: ts =>
    if version || major ≠ 1 then .error .malformed else directives true handles ts
  | .directive (.handle name text) :: ts =>
    if handles.any fun h => h.1 == name then .error .malformed
    else directives version ((name, text) :: handles) ts
  | .directive .other :: ts => directives version handles ts
  | .broken fault :: _ => .error (.fault fault)
  | ts => .ok (handles, ts)

/-- Whether a token starts a document that is marked as one. -/
def startsDocument : Token → Bool
  | .directive _ | .documentStart => true
  | _ => false

def endsDocument (t : Token) : Bool := startsDocument t || t == .documentEnd

def document : Parse Node := do
  let tokens := (← get).tokens
  let steps := 2 * tokens.length + 2
  if (← peek).any startsDocument then
    let (handles, tokens) ← liftM (directives false [] tokens)
    set { (← get) with tokens := tokens, handles := handles ++ defaultHandles }
    expect .documentStart
    if (← peek).all endsDocument then return empty
  node .block steps

/-- The tree of the only document of a text, or nothing when there is none. -/
def stream : Parse (Option Node) := do
  if (← peek).isNone then return none
  let n ← document
  modify fun s => { s with tokens := s.tokens.dropWhile (· == .documentEnd) }
  if (← peek).isNone then return some n else fail

def ofTokens (tokens : List Token) : Except Problem (Option Node) :=
  (stream.run ⟨tokens, defaultHandles, []⟩).map (·.1)

end Node

end CatalogSteward.Yaml
