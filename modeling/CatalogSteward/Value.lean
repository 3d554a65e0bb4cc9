import CatalogSteward.Calendar
import CatalogSteward.Json.Basic

/-!
# Document values

The values that a configuration document can hold: those of JSON together with byte strings, dates,
moments, sets, pairs and mappings whose keys need not be texts. Where a collection holds itself, the inner
occurrence is kept as a mark that stands for a collection around it. Every value has a literal form, which
messages show, and a plain form, which is the literal form without quotes around a text.
-/

namespace CatalogSteward

inductive Value where
  | null
  | bool (b : Bool)
  | int (n : Int)
  | real (x : Binary64)
  | text (s : String)
  | bytes (bs : List UInt8)
  | date (d : Date)
  | moment (m : Moment)
  | list (items : List Value)
  | pair (key value : Value)
  | set (items : List Value)
  | mapping (entries : List (Value × Value))
  | enclosing (isMapping : Bool)
  deriving Inhabited, Repr

namespace Value

mutual

def ofJson : Json → Value
  | .null => .null
  | .bool b => .bool b
  | .int n => .int n
  | .real x => .real x
  | .str s => .text s
  | .list items => .list (ofJsonItems items)
  | .object fields => .mapping (ofJsonFields fields)

def ofJsonItems : List Json → List Value
  | [] => []
  | j :: js => ofJson j :: ofJsonItems js

def ofJsonFields : List (String × Json) → List (Value × Value)
  | [] => []
  | (k, j) :: fs => (.text k, ofJson j) :: ofJsonFields fs

end

def typeName : Value → String
  | null => "NoneType"
  | bool _ => "bool"
  | int _ => "int"
  | real _ => "float"
  | text _ => "str"
  | bytes _ => "bytes"
  | date _ => "date"
  | moment _ => "datetime"
  | list _ => "list"
  | pair _ _ => "tuple"
  | set _ => "set"
  | mapping _ => "dict"
  | enclosing isMapping => if isMapping then "dict" else "list"

mutual

def literal : Value → String
  | null => "None"
  | bool b => if b then "True" else "False"
  | int n => Decimal.text n
  | real x => x.text
  | text s => Text.literal s
  | bytes bs => Text.literalBytes bs
  | date d => d.constructorText
  | moment m => m.constructorText
  | list items => "[" ++ ", ".intercalate (literals items) ++ "]"
  | pair k v => "(" ++ literal k ++ ", " ++ literal v ++ ")"
  | set items => if items.isEmpty then "set()" else "\x7b" ++ ", ".intercalate (literals items) ++ "\x7d"
  | mapping entries => "\x7b" ++ ", ".intercalate (entryLiterals entries) ++ "\x7d"
  | enclosing isMapping => if isMapping then "\x7b...\x7d" else "[...]"

def literals : List Value → List String
  | [] => []
  | v :: vs => literal v :: literals vs

def entryLiterals : List (Value × Value) → List String
  | [] => []
  | (k, v) :: es => (literal k ++ ": " ++ literal v) :: entryLiterals es

end

def plain : Value → String
  | text s => s
  | v => v.literal

def number? : Value → Option (Int ⊕ Binary64)
  | bool b => some (.inl (if b then 1 else 0))
  | int n => some (.inl n)
  | real x => some (match x.toInt? with
    | some n => .inl n
    | none => .inr x)
  | _ => none

/-- Whether two values are one key of a mapping. Numbers are compared as numbers, whatever their
type, and moments as instants. -/
def sameKey (v w : Value) : Bool :=
  match v.number?, w.number? with
  | some a, some b => a == b
  | none, none =>
    match v, w with
    | null, null => true
    | text s, text t => s == t
    | bytes s, bytes t => s == t
    | date d, date e => d == e
    | moment m, moment n => m.sameInstant n
    | _, _ => false
  | _, _ => false

/-- Whether a value can be a key of a mapping or a member of a set. -/
def isKey : Value → Bool
  | list _ | set _ | mapping _ | enclosing _ => false
  | _ => true

/-- Puts an entry into a mapping. An entry with the same key keeps its place and its key and takes the
new value. -/
def insert (entries : List (Value × Value)) (key value : Value) : List (Value × Value) :=
  match entries with
  | [] => [(key, value)]
  | (k, v) :: rest => if k.sameKey key then (k, value) :: rest else (k, v) :: insert rest key value

def get? (entries : List (Value × Value)) (key : String) : Option Value :=
  (entries.find? fun e => e.1.sameKey (.text key)).map (·.2)

end Value

end CatalogSteward
