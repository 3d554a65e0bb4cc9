/-!
# Blanks and line breaks

Text is trimmed at blanks and cut into lines at line breaks. Blanks are the white space of Unicode
together with the four separator controls U+001C to U+001F.
-/

namespace CatalogSteward.Text

def isBlank (c : Char) : Bool :=
  let n := c.toNat
  (9 ≤ n && n ≤ 13) || (28 ≤ n && n ≤ 32) || n == 0x85 || n == 0xA0 || n == 0x1680 ||
    (0x2000 ≤ n && n ≤ 0x200A) || n == 0x2028 || n == 0x2029 || n == 0x202F || n == 0x205F ||
    n == 0x3000

/-- White space alone: a blank that is none of the separator controls. -/
def isWhiteSpace (c : Char) : Bool := isBlank c && !(28 ≤ c.toNat && c.toNat ≤ 31)

/-- The characters without the leading and trailing ones that satisfy `p`. -/
def trimBy (p : Char → Bool) (cs : List Char) : List Char :=
  ((cs.dropWhile p).reverse.dropWhile p).reverse

def strip (s : String) : String := String.ofList (trimBy isBlank s.toList)

def isLineBreak (c : Char) : Bool :=
  let n := c.toNat
  (10 ≤ n && n ≤ 13) || (28 ≤ n && n ≤ 30) || n == 0x85 || n == 0x2028 || n == 0x2029

/-- The lines of `cs`, the first of which starts with `held`, kept in reverse. A carriage return and
the line feed after it are one break, and a break at the very end opens no further line. -/
def linesFrom (held : List Char) : List Char → List (List Char)
  | [] => if held.isEmpty then [] else [held.reverse]
  | '\r' :: '\n' :: cs => held.reverse :: linesFrom [] cs
  | c :: cs => if isLineBreak c then held.reverse :: linesFrom [] cs else linesFrom (c :: held) cs

def lines (s : String) : List String := (linesFrom [] s.toList).map String.ofList

def unifyBreaks : List Char → List Char
  | [] => []
  | '\r' :: '\n' :: cs => '\n' :: unifyBreaks cs
  | '\r' :: cs => '\n' :: unifyBreaks cs
  | c :: cs => c :: unifyBreaks cs

end CatalogSteward.Text
