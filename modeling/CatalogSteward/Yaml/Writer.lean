import CatalogSteward.Json.Basic
import CatalogSteward.Yaml.Style

/-!
# Writing documents

A mapping is written with one entry on a line, those of a nested mapping two columns further in, and the
items of a list behind hyphens. A key of more than one line, an empty one and a very long one stand
behind a question mark.
-/

namespace CatalogSteward.Yaml

inductive Leaf where
  | null
  | bool (b : Bool)
  | int (n : Int)
  | real (x : Binary64)
  | text (s : String)
  deriving Repr

inductive Tree where
  | leaf (l : Leaf)
  | list (items : List Tree)
  | mapping (entries : List (Leaf × Tree))
  deriving Repr

namespace Tree

mutual

def ofJson : Json → Tree
  | .null => .leaf .null
  | .bool b => .leaf (.bool b)
  | .int n => .leaf (.int n)
  | .real x => .leaf (.real x)
  | .str s => .leaf (.text s)
  | .list items => .list (ofJsonItems items)
  | .object fields => .mapping (ofJsonFields fields)

def ofJsonItems : List Json → List Tree
  | [] => []
  | j :: js => ofJson j :: ofJsonItems js

def ofJsonFields : List (String × Json) → List (Leaf × Tree)
  | [] => []
  | (k, j) :: fs => (.text k, ofJson j) :: ofJsonFields fs

end

end Tree

/-- A floating point number; one with an exponent has a point before it. -/
def realChars (x : Binary64) : List Char :=
  match x with
  | .nan => ".nan".toList
  | .infinity negative => (if negative then "-.inf" else ".inf").toList
  | x =>
    let cs := x.chars
    if cs.contains '.' then cs
    else cs.takeWhile (· ≠ 'e') ++ (if cs.contains 'e' then ['.', '0'] else []) ++ cs.dropWhile (· ≠ 'e')

namespace Leaf

/-- The leaf as it is written from the given column on. -/
def write (fold : Bool) (indent column : Nat) : Leaf → List Char
  | null => "null".toList
  | bool b => (if b then "true" else "false").toList
  | int n => Decimal.chars n
  | real x => realChars x
  | text s => Style.writeText fold indent column s.toList

def tagLength : Leaf → Nat
  | null | bool _ => 6
  | real _ => 7
  | int _ | text _ => 5

/-- Whether a leaf can be a key without a mark before it. -/
def isSimpleKey : Leaf → Bool
  | text s =>
    let cs := s.toList
    !cs.isEmpty && !cs.any isBreak && 5 + cs.length < 128
  | l => l.tagLength + (l.write false 0 0).length < 128

end Leaf

namespace Tree

def pad (indent : Nat) : List Char := List.replicate indent ' '

/-- An entry from its key on, given its value as it is written after a colon on a line of its own and
after a key whose colon ends at a column. -/
def writeEntry (indent : Nat) (k : Leaf) (inner : List Char) (afterKey : Nat → List Char) : List Char :=
  if k.isSimpleKey then
    let key := k.write false indent indent
    key ++ ':' :: afterKey (indent + key.length + 1)
  else '?' :: ' ' :: k.write true (indent + 2) (indent + 2) ++ '\n' :: pad indent ++ ':' :: inner

mutual

/-- A value after a hyphen or after a colon on a line of its own: its lines start two columns in. -/
def writeInner (indent : Nat) : Tree → List Char
  | leaf l => ' ' :: l.write true (indent + 2) (indent + 2) ++ ['\n']
  | list items => if items.isEmpty then " []\n".toList else writeItems (indent + 2) [' '] items
  | mapping entries =>
    if entries.isEmpty then " \x7b\x7d\n".toList else writeEntries (indent + 2) [' '] entries

/-- A value after a key and its colon, which end at the given column. -/
def writeAfterKey (indent column : Nat) : Tree → List Char
  | leaf l => ' ' :: l.write true (indent + 2) (column + 1) ++ ['\n']
  | list items =>
    if items.isEmpty then " []\n".toList else '\n' :: writeItems indent (pad indent) items
  | mapping entries =>
    if entries.isEmpty then " \x7b\x7d\n".toList
    else '\n' :: writeEntries (indent + 2) (pad (indent + 2)) entries

/-- The items of a list, the first of them after `lead`. -/
def writeItems (indent : Nat) (lead : List Char) : List Tree → List Char
  | [] => []
  | item :: items => lead ++ '-' :: writeInner indent item ++ writeItems indent (pad indent) items

/-- The entries of a mapping, the first of them after `lead`. -/
def writeEntries (indent : Nat) (lead : List Char) : List (Leaf × Tree) → List Char
  | [] => []
  | (k, v) :: entries =>
    lead ++ writeEntry indent k (writeInner indent v) (fun column => writeAfterKey indent column v)
      ++ writeEntries indent (pad indent) entries

end

end Tree

def write (entries : List (Leaf × Tree)) : String :=
  String.ofList (if entries.isEmpty then "\x7b\x7d\n".toList else Tree.writeEntries 0 [] entries)

end CatalogSteward.Yaml
