import CatalogSteward.Yaml.Node
import CatalogSteward.Yaml.Scalar

/-!
# Reading documents

The value of a document is built from its tree. Merge keys add the entries of other mappings in front of
those of their own mapping. A collection is filled only after the collections that stand above it, so of
several problems the one that lies least deep counts, and of those the first.
-/

namespace CatalogSteward.Yaml

/-- A problem and the number of rounds of filling collections after which it shows. -/
structure Delayed where
  rounds : Nat
  problem : Problem
  deriving DecidableEq, Repr

abbrev Build (α : Type) := Except Delayed α

def refuse {α : Type} (problem : Problem) : Build α := .error ⟨0, problem⟩

def Build.later {α : Type} : Build α → Build α
  | .ok a => .ok a
  | .error d => .error ⟨d.rounds + 1, d.problem⟩

/-- Two results in order; of two problems the one that shows first. -/
def Build.both {α β : Type} : Build α → Build β → Build (α × β)
  | .ok a, .ok b => .ok (a, b)
  | .error d, .error e => .error (if e.rounds < d.rounds then e else d)
  | .error d, .ok _ => .error d
  | .ok _, .error e => .error e

def Build.all {α : Type} : List (Build α) → Build (List α)
  | [] => .ok []
  | b :: bs => (b.both (all bs)).map fun r => r.1 :: r.2

namespace Node

def tag : Node → Tag
  | scalar tag _ | list tag _ | mapping tag _ => tag
  | enclosing isMapping => if isMapping then .mapping else .list

/-- Whether the value of a type is a collection, which is there before it is filled. -/
def isCollectionTag (tag : Tag) : Bool :=
  tag == .list || tag == .mapping || tag == .set || tag == .pairs

mutual

/-- The text of a scalar. A mapping has the text of the first entry under its value key. -/
def scalarText? : Node → Option String
  | scalar _ text => some text
  | mapping _ entries => entryText? entries
  | _ => none

def entryText? : List (Node × Node) → Option String
  | [] => none
  | (key, value) :: entries => if key.tag = .value then scalarText? value else entryText? entries

end

def buildScalar (tag : Tag) (text : String) : Build Value :=
  if isCollectionTag tag then (refuse .malformed).later
  else (scalarValue tag text).mapError fun problem => ⟨0, problem⟩

/-- The value of a mapping that is given the type of a scalar. -/
def buildDisguised (tag : Tag) (text : Option String) : Build Value :=
  match text, tag with
  | some _, .timestamp => refuse (.fault .notText)
  | some text, tag => buildScalar tag text
  | none, _ => refuse .malformed

/-- A mapping of the given entries; of those with one key the last counts. -/
def mappingOf (entries : List (Value × Value)) : Value :=
  .mapping (entries.foldl (fun entries e => Value.insert entries e.1 e.2) [])

def setOf (entries : List (Value × Value)) : Value :=
  .set ((entries.foldl (fun entries e => Value.insert entries e.1 e.2) []).map (·.1))

/-- The entries of a mapping: those that its merge keys add, and its own. -/
structure Entries where
  added : List (Build (Value × Value))
  own : List (Build (Value × Value))

def Entries.all (entries : Entries) : List (Build (Value × Value)) := entries.added ++ entries.own

/-- The value of a key, given its value as a node. It may not be a collection, and the sign of the value
key is a text here. -/
def keyValue (key : Node) (built : Build Value) : Build Value :=
  match key with
  | scalar .value text => .ok (.text text)
  | _ => if isCollectionTag key.tag then refuse .malformed else built

mutual

def build : Node → Build Value
  | scalar tag text => buildScalar tag text
  | list tag items =>
    match tag with
    | .list => Build.later ((Build.all (buildItems items)).map Value.list)
    | .pairs => Build.later ((Build.all (buildPairs items)).map Value.list)
    | .mapping | .set => (refuse .malformed).later
    | _ => refuse .malformed
  | mapping tag entries =>
    match tag, buildEntries entries with
    | .mapping, some es => Build.later ((Build.all es.all).map mappingOf)
    | .set, some es => Build.later ((Build.all es.all).map setOf)
    | .mapping, none | .set, none | .list, _ | .pairs, _ => (refuse .malformed).later
    | tag, _ => buildDisguised tag (entryText? entries)
  | enclosing isMapping => .ok (.enclosing isMapping)

def buildItems : List Node → List (Build Value)
  | [] => []
  | n :: ns => build n :: buildItems ns

/-- The pairs of a list of mappings with one entry each. -/
def buildPairs : List Node → List (Build Value)
  | [] => []
  | mapping _ [(key, value)] :: ns =>
    ((build key).both (build value)).map (fun r => .pair r.1 r.2) :: buildPairs ns
  | _ :: ns => refuse .malformed :: buildPairs ns

/-- The entries of a mapping; `none` when a merge key has a value that is no mapping. -/
def buildEntries : List (Node × Node) → Option Entries
  | [] => some ⟨[], []⟩
  | (key, value) :: rest =>
    if key.tag = .merge then do
      let added ← buildMerged value
      let es ← buildEntries rest
      return ⟨added ++ es.added, es.own⟩
    else do
      let es ← buildEntries rest
      return ⟨es.added, (keyValue key (build key)).both (build value) :: es.own⟩

def buildMerged : Node → Option (List (Build (Value × Value)))
  | mapping _ entries => (buildEntries entries).map Entries.all
  | list _ items => buildMergedItems items
  | enclosing true => some []
  | _ => none

/-- The entries of several mappings, those of the last one in front. -/
def buildMergedItems : List Node → Option (List (Build (Value × Value)))
  | [] => some []
  | mapping _ entries :: ns => do
    let es ← buildEntries entries
    return (← buildMergedItems ns) ++ es.all
  | enclosing true :: ns => buildMergedItems ns
  | _ => none

end

end Node

/-- The value of a text; a text without a document has the null value. -/
def read (text : List Char) : Except Problem Value := do
  match ← Node.ofTokens (← Token.ofText text) with
  | none => .ok .null
  | some n => n.build.mapError Delayed.problem

end CatalogSteward.Yaml
