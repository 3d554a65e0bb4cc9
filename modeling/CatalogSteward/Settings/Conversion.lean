import CatalogSteward.Path
import CatalogSteward.Settings.Problem
import CatalogSteward.Text.Utf8

/-!
# Conversion of values to settings

A setting accepts more than the values of its own type. A text may hold a number or a truth value, a
number may stand for another kind of number, and bytes may stand for the text that they encode.
-/

namespace CatalogSteward.Settings

/-- The text of a value: the value itself, or the text that its bytes encode. -/
def textOf? : Value → Option (Except Unit String)
  | .text s => some (.ok s)
  | .bytes bs => some (match Text.decodeUtf8 bs with
    | some cs => .ok (String.ofList cs)
    | none => .error ())
  | _ => none

def readText (v : Value) : Except Defect String :=
  match textOf? v with
  | some (.ok s) => .ok s
  | some (.error ()) => .error .undecodableText
  | none => .error .notText

/-! ### Integers -/

/-- Drops the zeros at the start of a numeral, with underscores among them, but not its last character
before the end or a point. A numeral that starts with neither a digit nor a minus is refused. -/
def dropZeros : List Char → Option (List Char)
  | '0' :: cs =>
    let rest := cs.dropWhile fun c => c == '0' || c == '_'
    let last := (cs.takeWhile fun c => c == '0' || c == '_').getLast?.getD '0'
    match rest with
    | [] => some [last]
    | '.' :: _ => some (last :: rest)
    | c :: _ => if c.isDigit then some rest else none
  | c :: cs => if c.isDigit || c == '-' then some (c :: cs) else none
  | [] => none

def dropFraction (cs : List Char) : List Char :=
  let fraction := (cs.dropWhile (· ≠ '.')).drop 1
  if !fraction.isEmpty && fraction.all (· == '0') then cs.takeWhile (· ≠ '.') else cs

def hasDoubleUnderscore : List Char → Bool
  | a :: b :: cs => (a == '_' && b == '_') || hasDoubleUnderscore (b :: cs)
  | _ => false

def dropUnderscores (cs : List Char) : List Char :=
  if cs.head? == some '_' || cs.getLast? == some '_' || hasDoubleUnderscore cs then cs
  else cs.filter (· ≠ '_')

def readDigits (cs : List Char) : Except Defect Int :=
  let (negative, ds) := match cs with
    | '-' :: ds => (true, ds)
    | ds => (false, ds)
  if ds.isEmpty || !ds.all Char.isDigit || (ds.head? == some '0' && ds.length != 1) then
    .error .unreadableInteger
  else if Decimal.digitLimit < ds.length then .error .integerTooLarge
  else
    let n : Int := ds.foldl (fun n d => n * 10 + (d.toNat - 0x30)) (0 : Nat)
    .ok (if negative then -n else n)

/-- The numeral in a text: blanks around it and a plus sign are dropped. -/
def numeral? (s : String) : Option (List Char) :=
  match Text.trimBy Text.isWhiteSpace s.toList with
  | '+' :: '-' :: _ => none
  | '+' :: cs => dropZeros cs
  | cs => dropZeros cs

def readIntegerText (s : String) : Except Defect Int :=
  match numeral? s with
  | some cs => readDigits (dropUnderscores (dropFraction cs))
  | none => .error .unreadableInteger

/-- The bounds within which a floating point number may stand for an integer. -/
def integerBound : Int := (Binary64.powerOfTwo 63 : Nat)

def readIntegerReal (x : Binary64) : Except Defect Int :=
  match x, x.toInt? with
  | .finite _ _ _, some n =>
    if -integerBound < n ∧ n < integerBound then .ok n else .error .integerTooLarge
  | .finite _ _ _, none => .error .fraction
  | _, _ => .error .notFinite

def readInteger (v : Value) : Except Defect Int :=
  match v, textOf? v with
  | .int n, _ => .ok n
  | .bool b, _ => .ok (if b then 1 else 0)
  | .real x, _ => readIntegerReal x
  | _, some (.ok s) => readIntegerText s
  | _, some (.error ()) => .error .unreadableInteger
  | _, none => .error .notInteger

/-! ### Truth values and paths -/

def trueWords : List String := ["1", "t", "y", "on", "yes", "true"]

def falseWords : List String := ["0", "f", "n", "off", "no", "false"]

def readBooleanText (s : String) : Except Defect Bool :=
  let low := String.ofList (s.toList.map Char.toLower)
  if falseWords.contains low then .ok false
  else if trueWords.contains low then .ok true
  else .error .unreadableBoolean

def readBooleanInteger (n : Int) : Except Defect Bool :=
  if n = 0 then .ok false else if n = 1 then .ok true else .error .unreadableBoolean

def readBoolean (v : Value) : Except Defect Bool :=
  match v, textOf? v with
  | .bool b, _ => .ok b
  | .int n, _ =>
    if -integerBound ≤ n ∧ n < integerBound then readBooleanInteger n else .error .notBoolean
  | .real x, _ =>
    match readIntegerReal x with
    | .ok n => readBooleanInteger n
    | .error _ => .error .notBoolean
  | _, some (.ok s) => readBooleanText s
  | _, some (.error ()) => .error .unreadableBoolean
  | _, none => .error .notBoolean

def readPath : Value → Except Defect Path
  | .text s => .ok (.ofText s)
  | _ => .error .notPath

end CatalogSteward.Settings
