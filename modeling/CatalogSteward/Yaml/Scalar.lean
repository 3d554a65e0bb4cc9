import CatalogSteward.Text.Base64
import CatalogSteward.Text.Case
import CatalogSteward.Value
import CatalogSteward.Yaml.Tag

/-!
# Values of scalars

A scalar with one of the types for single values is read in the way of its type. A tag may give a type
to a text that has not its form; then there may be no value.
-/

namespace CatalogSteward.Yaml

/-- The sign in front of a number and the text after it; there must be a number. -/
def splitNumber (cs : List Char) : Except Fault (Bool × List Char) :=
  match cs with
  | [] => .error .emptyNumber
  | '-' :: cs => .ok (true, cs)
  | '+' :: cs => .ok (false, cs)
  | cs => .ok (false, cs)

def readInteger (base : Nat) (cs : List Char) : Except Fault Int :=
  (Decimal.read base (String.ofList cs)).mapError .integer

/-- The integer whose places of sixty are given, the most significant first. -/
def ofPlaces (places : List Int) : Int := places.foldl (fun n place => n * 60 + place) 0

/-- The value of an integer: binary after `0b`, hexadecimal after `0x`, octal after `0`, with places of
sixty between colons, and decimal otherwise. -/
def integerValue (text : List Char) : Except Fault Int := do
  let (negative, cs) ← splitNumber (text.filter (· ≠ '_'))
  let magnitude ←
    match cs with
    | ['0'] => .ok 0
    | '0' :: 'b' :: ds => readInteger 2 ds
    | '0' :: 'x' :: ds => readInteger 16 ds
    | '0' :: _ => readInteger 8 cs
    | [] => .error .emptyNumber
    | _ =>
      if cs.contains ':' then return ofPlaces (← (Tag.splitFrom ':' [] cs).mapM (readInteger 10))
      else readInteger 10 cs
  return if negative then -magnitude else magnitude

def readReal (cs : List Char) : Except Fault Binary64 :=
  match Binary64.read? (String.ofList cs) with
  | some x => .ok x
  | none => .error (.real (String.ofList cs))

/-- The sum of places of sixty, the least significant first; `base` is the weight of the next one. -/
def sumPlaces (base : Nat) (sum : Binary64) : List Binary64 → Except Fault Binary64
  | [] => .ok sum
  | place :: places =>
    match Binary64.ofInt base with
    | .infinity _ => .error .tooManyPlaces
    | weight => sumPlaces (base * 60) (sum.add (place.mul weight)) places

def realValue (text : List Char) : Except Fault Binary64 := do
  let low := Text.lower (String.ofList (text.filter (· ≠ '_')))
  let (negative, cs) ← splitNumber low.toList
  if cs = ".nan".toList then return .nan
  else
    let magnitude ←
      if cs = ".inf".toList then .ok (.infinity false)
      else if cs.contains ':' then do
        sumPlaces 1 (.zero false) (← (Tag.splitFrom ':' [] cs).mapM readReal).reverse
      else readReal cs
    return if negative then magnitude.neg else magnitude

def boolValue (text : List Char) : Except Fault Bool :=
  let low := Text.lower (String.ofList text)
  match Tag.boolWords.find? fun entry => entry.1 == low with
  | some (_, b) => .ok b
  | none => .error .boolean

/-- The value of a timestamp: a date, or a moment when there is a time. -/
def timestampValue (text : List Char) : Except Fault Value :=
  match Timestamp.read? (Tag.dropFinalBreak text) with
  | none => .error .timestamp
  | some t =>
    match t.clock with
    | none => ((Calendar.date t.year t.month t.day).map Value.date).mapError .calendar
    | some clock =>
      ((Calendar.moment t.year t.month t.day clock.hour clock.minute clock.second
        (Timestamp.microseconds clock.fraction) clock.offset).map Value.moment).mapError .calendar

def bytesValue (text : List Char) : Except Problem (List UInt8) :=
  if text.any fun c => 128 ≤ c.toNat then .error .malformed
  else match Text.Base64.decode? text with
  | some bs => .ok bs
  | none => .error .malformed

/-- The value of a scalar of the given type; collections are not among them. -/
def scalarValue (tag : Tag) (text : String) : Except Problem Value :=
  let cs := text.toList
  match tag with
  | .null => .ok .null
  | .bool => ((boolValue cs).map Value.bool).mapError .fault
  | .int => ((integerValue cs).map Value.int).mapError .fault
  | .real => ((realValue cs).map Value.real).mapError .fault
  | .bytes => (bytesValue cs).map Value.bytes
  | .timestamp => (timestampValue cs).mapError .fault
  | .text => .ok (.text text)
  | _ => .error .malformed

end CatalogSteward.Yaml
