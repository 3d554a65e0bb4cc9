import CatalogSteward.Calendar

/-!
# Characters and places in a document

A document is read as a list of spots: characters together with their line, column and position, all
counted from zero. Line breaks have been unified before, so that a carriage return does not occur. The
byte order mark takes no column.
-/

namespace CatalogSteward.Yaml

/-- Why no value could be formed from a document that is well formed. -/
inductive Fault where
  | escape (code : Nat)
  | integer (refusal : Decimal.Refusal)
  | real (text : String)
  | boolean
  | emptyNumber
  | tooManyPlaces
  | timestamp
  | notText
  | calendar (problem : Calendar.Problem)
  deriving DecidableEq, Repr

inductive Problem where
  | malformed
  | fault (fault : Fault)
  deriving DecidableEq, Repr

def isAllowed (c : Char) : Bool :=
  let n := c.toNat
  n == 9 || n == 10 || n == 13 || (0x20 ≤ n && n ≤ 0x7E) || n == 0x85 || (0xA0 ≤ n && n ≤ 0xD7FF)
    || (0xE000 ≤ n && n ≤ 0xFFFD) || 0x10000 ≤ n

def isBreak (c : Char) : Bool :=
  c == '\n' || c.toNat == 0x85 || c.toNat == 0x2028 || c.toNat == 0x2029

/-- What a line break stands for: the two separators of Unicode for themselves, all else for a line
feed. -/
def breakChar (c : Char) : Char := if c.toNat = 0x85 then '\n' else c

def isSpaceOrTab (c : Char) : Bool := c == ' ' || c == '\t'

def isSeparator (c : Char) : Bool := isSpaceOrTab c || isBreak c

def isNameChar (c : Char) : Bool := c.isAlphanum || c == '-' || c == '_'

def byteOrderMark : Char := Char.ofNat 0xFEFF

structure Spot where
  char : Char
  line : Nat
  column : Nat
  index : Nat
  deriving DecidableEq, Repr, Inhabited

/-- The spots of a text that starts at the given place. -/
def spotsFrom (line column index : Nat) : List Char → List Spot
  | [] => []
  | c :: cs =>
    ⟨c, line, column, index⟩ ::
      (if isBreak c then spotsFrom (line + 1) 0 (index + 1) cs
      else if c = byteOrderMark then spotsFrom line column (index + 1) cs
      else spotsFrom line (column + 1) (index + 1) cs)

/-- Whether the text ends here or goes on with a character of the given kind. -/
def endsAt (p : Char → Bool) : List Spot → Bool
  | [] => true
  | s :: _ => p s.char

/-- The characters of the given kind at the front, and what follows them. -/
def spanChars (p : Char → Bool) (spots : List Spot) : List Char × List Spot :=
  ((spots.takeWhile fun s => p s.char).map Spot.char, spots.dropWhile fun s => p s.char)

def skipSpaces (spots : List Spot) : List Spot := spots.dropWhile (·.char = ' ')

def skipLine (spots : List Spot) : List Spot := spots.dropWhile fun s => !isBreak s.char

/-- The rest of a line that may hold nothing but a comment, with its break removed. -/
def skipIgnoredLine (spots : List Spot) : Except Problem (List Spot) :=
  let spots := skipSpaces spots
  let spots := if spots.head?.map (·.char) = some '#' then skipLine spots else spots
  match spots with
  | [] => .ok []
  | s :: rest => if isBreak s.char then .ok rest else .error .malformed

/-- Whether the line starts with three of the given character standing alone. -/
def isMark (c : Char) : List Spot → Bool
  | a :: b :: d :: rest => a.column = 0 && a.char = c && b.char = c && d.char = c && endsAt isSeparator rest
  | _ => false

def isDocumentMark (spots : List Spot) : Bool := isMark '-' spots || isMark '.' spots

/-- What has been read since the last character of a scalar: nothing, blanks on its line, or the first
line break and those after it, newest first. An escaped break is not part of the text. -/
inductive Gap where
  | none
  | blanks (held : List Char)
  | breaks (first : Char) (more : List Char)
  | joined (more : List Char)
  deriving DecidableEq, Repr

/-- The text that a gap stands for when the scalar goes on after it. A single line feed is a space. -/
def Gap.text : Gap → List Char
  | none => []
  | blanks held => held.reverse
  | breaks first more =>
    if first ≠ '\n' then first :: more.reverse else if more.isEmpty then [' '] else more.reverse
  | joined more => more.reverse

def Gap.addBreak (c : Char) : Gap → Gap
  | none | blanks _ => breaks (breakChar c) []
  | breaks first more => breaks first (breakChar c :: more)
  | joined more => joined (breakChar c :: more)

/-- The gap after one more blank. Blanks after a break do not count. -/
def Gap.addBlank (c : Char) : Gap → Gap
  | none => blanks [c]
  | blanks held => blanks (c :: held)
  | gap => gap

def Gap.isBroken : Gap → Bool
  | breaks _ _ | joined _ => true
  | _ => false

end CatalogSteward.Yaml
