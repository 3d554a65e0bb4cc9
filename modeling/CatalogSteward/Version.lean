import CatalogSteward.Number.Decimal

/-!
# Server versions

A server reports its version as one number. From major version 10 on a version has two parts, and the
number is the major part times ten thousand plus the minor part; before that it has three parts, two
digits of the number each for the second and the third.
-/

namespace CatalogSteward.Version

/-- The parts of a text between points; `held` is the part being read, in reverse. -/
def partsFrom (held : List Char) : List Char → List (List Char)
  | [] => [held.reverse]
  | '.' :: cs => held.reverse :: partsFrom [] cs
  | c :: cs => partsFrom (c :: held) cs

/-- The parts of a version text without the blanks around it. -/
def parts (text : String) : List (List Char) := partsFrom [] (Text.strip text).toList

/-- Whether a text is a dotted version: one to three parts, each of them digits only. -/
def isDotted (text : String) : Bool :=
  let parts := parts text
  parts.length ≤ 3 && parts.all fun part => !part.isEmpty && part.all Text.isDigit

inductive Problem where
  | notDotted (text : String)
  | notNumber (refusal : Decimal.Refusal)
  deriving DecidableEq, Repr

def number (major minor patch : Int) : Int :=
  if 10 ≤ major then major * 10000 + minor else major * 10000 + minor * 100 + patch

/-- The version number of a text. A digit that is no numeral passes as part of a dotted version and
still has no number. -/
def parse (text : String) : Except Problem Int :=
  if isDotted text then
    match (parts text).mapM fun part => Decimal.read 10 (String.ofList part) with
    | .ok numbers => .ok (number (numbers.getD 0 0) (numbers.getD 1 0) (numbers.getD 2 0))
    | .error refusal => .error (.notNumber refusal)
  else .error (.notDotted text)

def format (n : Int) : String :=
  let major := n.fdiv 10000
  if 10 ≤ major then Decimal.text major ++ "." ++ Decimal.text (n.fmod 10000)
  else Decimal.text major ++ "." ++ Decimal.text ((n.fdiv 100).fmod 100) ++ "."
    ++ Decimal.text (n.fmod 100)

def firstWithExtensions : Int := 90100

def supportsExtensions (n : Int) : Bool := firstWithExtensions ≤ n

end CatalogSteward.Version
