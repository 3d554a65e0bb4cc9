import CatalogSteward.Text.Hex
import CatalogSteward.Yaml.Timestamp

/-!
# Types of nodes

Every node of a document has a type. A tag names it, and a plain scalar without a tag has the type whose
written form it has; any other node is a text, a list or a mapping.
-/

namespace CatalogSteward.Yaml

inductive Tag where
  | null
  | bool
  | int
  | real
  | bytes
  | timestamp
  | text
  | list
  | mapping
  | set
  | pairs
  | merge
  | value
  | unknown
  deriving DecidableEq, Repr

namespace Tag

def namespaceText : String := "tag:yaml.org,2002:"

def names : List (String × Tag) :=
  [("null", null), ("bool", bool), ("int", int), ("float", real), ("binary", bytes),
    ("timestamp", timestamp), ("str", text), ("seq", list), ("map", mapping), ("set", set),
    ("omap", pairs), ("pairs", pairs), ("merge", merge), ("value", value)]

def ofName (name : String) : Tag :=
  match names.find? fun entry => namespaceText ++ entry.1 == name with
  | some entry => entry.2
  | none => unknown

/-! ### Written forms -/

def isDigitOrLine (c : Char) : Bool := c.isDigit || c == '_'

def isDigits : List Char → Bool
  | c :: cs => c.isDigit && cs.all isDigitOrLine
  | [] => false

def dropSign : List Char → List Char
  | '-' :: cs => cs
  | '+' :: cs => cs
  | cs => cs

/-- The parts of a text between the given characters; `held` is the part being read, in reverse. -/
def splitFrom (separator : Char) (held : List Char) : List Char → List (List Char)
  | [] => [held.reverse]
  | c :: cs => if c = separator then held.reverse :: splitFrom separator [] cs
    else splitFrom separator (c :: held) cs

def isSixtieth : List Char → Bool
  | [d] => d.isDigit
  | [t, d] => '0' ≤ t && t ≤ '5' && d.isDigit
  | _ => false

/-- Two or more places of sixty each, the first of which is any number. -/
def isSexagesimal (cs : List Char) : Bool :=
  match splitFrom ':' [] cs with
  | first :: place :: places => isDigits first && (place :: places).all isSixtieth
  | _ => false

def isInt (cs : List Char) : Bool :=
  match dropSign cs with
  | ['0'] => true
  | '0' :: 'b' :: ds => !ds.isEmpty && ds.all fun d => d == '0' || d == '1' || d == '_'
  | '0' :: 'x' :: ds => !ds.isEmpty && ds.all fun d => (Text.hexValue? d).isSome || d == '_'
  | '0' :: ds => !ds.isEmpty && ds.all fun d => ('0' ≤ d && d ≤ '7') || d == '_'
  | ds => (isDigits ds || isSexagesimal ds) && ds.head? != some '0'

def isExponent : List Char → Bool
  | [] => true
  | e :: sign :: ds =>
    (e == 'e' || e == 'E') && (sign == '-' || sign == '+') && !ds.isEmpty && ds.all Char.isDigit
  | _ => false

def splitAtPoint (cs : List Char) : Option (List Char × List Char) :=
  match cs.dropWhile (· ≠ '.') with
  | _ :: after => some (cs.takeWhile (· ≠ '.'), after)
  | [] => none

def isReal (cs : List Char) : Bool :=
  [".nan", ".NaN", ".NAN"].any (·.toList == cs) ||
    [".inf", ".Inf", ".INF"].any (·.toList == dropSign cs) ||
    match splitAtPoint cs with
    | none => false
    | some (whole, fraction) =>
      let digits := fraction.takeWhile isDigitOrLine
      let rest := fraction.dropWhile isDigitOrLine
      if whole.isEmpty then isDigits digits && isExponent rest
      else (isDigits (dropSign whole) && isExponent rest) ||
        (isSexagesimal (dropSign whole) && rest.isEmpty)

def boolWords : List (String × Bool) :=
  [("yes", true), ("no", false), ("true", true), ("false", false), ("on", true), ("off", false)]

/-- Whether a text is a word in lower case, in upper case, or with a capital. -/
def isSpelling (word : String) (cs : List Char) : Bool :=
  let low := word.toList
  cs == low || cs == low.map Char.toUpper || cs == word.capitalize.toList

def isBool (cs : List Char) : Bool := boolWords.any fun entry => isSpelling entry.1 cs

def isNull (cs : List Char) : Bool := cs.isEmpty || cs == ['~'] || isSpelling "null" cs

def isTimestamp (cs : List Char) : Bool :=
  match Timestamp.read? cs with
  | some t => t.full || t.clock.isSome
  | none => false

/-- The type whose written form the whole text has. The signs of a tag, an anchor and an alias have a
type of their own that no node can have. -/
def ofForm (cs : List Char) : Tag :=
  if isBool cs then bool
  else if isReal cs then real
  else if isInt cs then int
  else if cs == ['<', '<'] then merge
  else if isNull cs then null
  else if isTimestamp cs then timestamp
  else if cs == ['='] then value
  else if cs == ['!'] || cs == ['&'] || cs == ['*'] then unknown
  else text

/-- The text without one line feed at its end, unless nothing else is in it. -/
def dropFinalBreak (cs : List Char) : List Char :=
  if 2 ≤ cs.length ∧ cs.getLast? = some '\n' then cs.dropLast else cs

def ofPlain (cs : List Char) : Tag := ofForm (dropFinalBreak cs)

end Tag

end CatalogSteward.Yaml
