import CatalogSteward.Text.Hex
import CatalogSteward.Yaml.Tag

/-!
# Written scalars

A text is written without quotes when it reads back as the same text that way, else between single
quotes when it holds nothing but printable ASCII and line feeds without spaces beside them, and else
between double quotes with escapes. Long lines are folded at single spaces, or at an escaped line break
between double quotes, once they pass the eightieth column.
-/

namespace CatalogSteward.Yaml.Style

def width : Nat := 80

def isEasy (c : Char) : Bool := c == '\n' || (0x20 ≤ c.toNat && c.toNat ≤ 0x7E)

def hasRaggedLine : List Char → Bool
  | a :: b :: cs => (a == ' ' && b == '\n') || (a == '\n' && b == ' ') || hasRaggedLine (b :: cs)
  | _ => false

def allowsSingle (cs : List Char) : Bool := cs.all isEasy && !hasRaggedLine cs

/-- Whether the next character, if there is one, is a space or a line feed. -/
def spaceNext : List Char → Bool
  | [] => true
  | c :: _ => c == ' ' || c == '\n'

/-- Whether a text has a colon before a space, or a number sign after one, past its first character. -/
def hasInnerMark : List Char → Bool
  | a :: b :: cs =>
    (b == ':' && spaceNext cs) || (b == '#' && (a == ' ' || a == '\n')) || hasInnerMark (b :: cs)
  | _ => false

/-- Whether the first character of a text has a meaning of its own there. -/
def startsWithMark : List Char → Bool
  | [] => false
  | c :: cs => "#,[]\x7b\x7d&*!|>'\"%@`".toList.contains c || ("?:-".toList.contains c && spaceNext cs)

def startsLikeDocumentMark (cs : List Char) : Bool :=
  cs.take 3 == ['-', '-', '-'] || cs.take 3 == ['.', '.', '.']

/-- Whether a text may stand without quotes: it is a single line without spaces around it, none of its
characters has a meaning of its own, and it has not the form of another type. -/
def allowsPlain (cs : List Char) : Bool :=
  cs.all (fun c => isEasy c && c != '\n') && cs.head? != some ' ' && cs.getLast? != some ' '
    && !startsLikeDocumentMark cs && !startsWithMark cs && !hasInnerMark cs && Tag.ofPlain cs == .text

inductive Quotes where
  | none
  | single
  | double
  deriving DecidableEq, Repr

def quotesOf (cs : List Char) : Quotes :=
  if allowsPlain cs then .none else if allowsSingle cs then .single else .double

def newLine (indent : Nat) : List Char := '\n' :: List.replicate indent ' '

/-- Words with the spaces between them. A space that stands alone between two words is written as a line
break when it lies behind the width. A single quote is written twice between single quotes. -/
def wordsFrom (fold quoted : Bool) (indent column : Nat) (before : Option Char) : List Char → List Char
  | [] => []
  | c :: cs =>
    if c = ' ' then
      let alone := before.isSome && before != some ' ' && !cs.isEmpty && cs.head? != some ' '
      if fold && alone && width < column then
        newLine indent ++ wordsFrom fold quoted indent indent (some c) cs
      else c :: wordsFrom fold quoted indent (column + 1) (some c) cs
    else if c = '\n' then
      (if before = some '\n' then [] else ['\n'])
        ++ (if cs.head? = some '\n' then ['\n'] else newLine indent)
        ++ wordsFrom fold quoted indent indent (some c) cs
    else if quoted && c == '\'' then
      '\'' :: '\'' :: wordsFrom fold quoted indent (column + 2) (some c) cs
    else c :: wordsFrom fold quoted indent (column + 1) (some c) cs

def letter? (c : Char) : Option Char :=
  match c with
  | '\x00' => some '0'
  | '\x07' => some 'a'
  | '\x08' => some 'b'
  | '\t' => some 't'
  | '\n' => some 'n'
  | '\x0b' => some 'v'
  | '\x0c' => some 'f'
  | '\r' => some 'r'
  | '\x1b' => some 'e'
  | '"' => some '"'
  | '\\' => some '\\'
  | _ =>
    if c.toNat = 0x85 then some 'N'
    else if c.toNat = 0xA0 then some '_'
    else if c.toNat = 0x2028 then some 'L'
    else if c.toNat = 0x2029 then some 'P'
    else none

def isEscaped (c : Char) : Bool := c == '"' || c == '\\' || !(0x20 ≤ c.toNat && c.toNat ≤ 0x7E)

def escape (c : Char) : List Char :=
  match letter? c with
  | some l => ['\\', l]
  | none =>
    if c.toNat ≤ 0xFF then '\\' :: 'x' :: Text.hexUpper 2 c.toNat
    else if c.toNat ≤ 0xFFFF then '\\' :: 'u' :: Text.hexUpper 4 c.toNat
    else '\\' :: 'U' :: Text.hexUpper 8 c.toNat

/-- An escaped line break. A space that follows it is escaped, so that it counts. -/
def escapedBreak (indent : Nat) (spaceFollows : Bool) : List Char :=
  '\\' :: newLine indent ++ (if spaceFollows then ['\\'] else [])

/-- A text between double quotes. A line that has passed the width is broken before a space or after an
escape, though not beside the first or the last character; `fresh` tells that an escape has just been
written. -/
def escapedFrom (fold : Bool) (indent column : Nat) (first fresh : Bool) : List Char → List Char
  | [] => []
  | c :: cs =>
    let inner := fold && !first && !cs.isEmpty
    if isEscaped c then
      let e := escape c
      let column := column + e.length
      if inner && width + 1 < column then
        let spaceFollows := cs.head? == some ' '
        e ++ escapedBreak indent spaceFollows
          ++ escapedFrom fold indent (indent + if spaceFollows then 1 else 0) false true cs
      else e ++ escapedFrom fold indent column false true cs
    else if inner && (c == ' ' || fresh) && width < column then
      escapedBreak indent (c == ' ')
        ++ c :: escapedFrom fold indent (indent + (if c = ' ' then 1 else 0) + 1) false false cs
    else c :: escapedFrom fold indent (column + 1) false false cs

/-- A text as it is written from the given column on, folded to lines with the given indentation. -/
def writeText (fold : Bool) (indent column : Nat) (cs : List Char) : List Char :=
  match quotesOf cs with
  | .none => wordsFrom fold false indent column none cs
  | .single => '\'' :: wordsFrom fold true indent (column + 1) none cs ++ ['\'']
  | .double => '"' :: escapedFrom fold indent (column + 1) true false cs ++ ['"']

end CatalogSteward.Yaml.Style
