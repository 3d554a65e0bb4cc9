import CatalogSteward.Text.Literal

/-!
# File paths

A path is kept without empty parts and without parts that name the directory itself. Parent parts are
kept, because what they name depends on the directories before them. Two leading slashes are kept
apart from one, as the standard for file names allows them another meaning.
-/

namespace CatalogSteward

/-- A path with its number of leading slashes, none to two, and its parts. -/
structure Path where
  slashes : Nat
  parts : List String
  deriving DecidableEq, Repr, Inhabited

namespace Path

/-- The parts of a text between slashes; `held` is the part being read, in reverse. -/
def splitFrom (held : List Char) : List Char → List String
  | [] => [String.ofList held.reverse]
  | '/' :: cs => String.ofList held.reverse :: splitFrom [] cs
  | c :: cs => splitFrom (c :: held) cs

def ofText (s : String) : Path :=
  let leading := (s.toList.takeWhile (· = '/')).length
  { slashes := if leading = 2 then 2 else min leading 1
    parts := (splitFrom [] s.toList).filter fun part => part ≠ "" ∧ part ≠ "." }

/-- The text of a path; a path without parts is the directory itself. -/
def text (p : Path) : String :=
  if p.slashes = 0 ∧ p.parts = [] then "."
  else String.ofList (List.replicate p.slashes '/') ++ "/".intercalate p.parts

def literal (p : Path) : String := Text.literal p.text

def parent (p : Path) : Path := { p with parts := p.parts.dropLast }

def name (p : Path) : String := p.parts.getLast?.getD ""

/-- The last part up to its suffix. A suffix is a point with what follows it, and it neither starts nor
ends the part. -/
def stem (cs : List Char) : List Char :=
  let tail := (cs.reverse.takeWhile (· ≠ '.')).length
  let front := cs.length - tail
  if tail = 0 ∨ front ≤ 1 then cs else cs.take (front - 1)

def withSuffix (p : Path) (suffix : String) : Path :=
  { p with parts := p.parts.dropLast ++ [String.ofList (stem p.name.toList) ++ suffix] }

/-- Whether a path holds a character that no file name can hold. -/
def hasNul (p : Path) : Bool := p.parts.any fun part => part.toList.contains '\x00'

end Path

end CatalogSteward
