import CatalogSteward.Text.Blank
import CatalogSteward.Text.Digit
import CatalogSteward.Text.Literal

/-!
# Decimal integers

Integers are written in decimal without leading zeros. They are read in any base up to thirty-six:
blanks around the numeral are dropped, a sign may lead, single underscores may stand between digits,
and the decimal digits of every script count. Conversions between decimal text and integers are
limited to numerals of 4300 digits.
-/

namespace CatalogSteward.Decimal

def natChars (n : Nat) : List Char :=
  if n < 10 then [Char.ofNat (0x30 + n)] else natChars (n / 10) ++ [Char.ofNat (0x30 + n % 10)]

def chars : Int → List Char
  | .ofNat n => natChars n
  | .negSucc n => '-' :: natChars (n + 1)

def natText (n : Nat) : String := String.ofList (natChars n)

def text (n : Int) : String := String.ofList (chars n)

/-- The greatest number of digits that a conversion to or from decimal text accepts. -/
def digitLimit : Nat := 4300

def powerOfTen (n : Nat) : Nat := Nat.pow 10 n

/-- Whether the decimal text of an integer stays within the limit. -/
def isWritable (n : Int) : Bool := n.natAbs < powerOfTen digitLimit

inductive Refusal where
  | malformed (base : Nat) (text : String)
  | tooLong (digits : Nat)
  deriving DecidableEq, Repr

def limitAdvice : String := "use sys.set_int_max_str_digits() to increase the limit"

/-- The complaint about an integer that is too long to be written. -/
def unwritableMessage : String :=
  "Exceeds the limit (" ++ natText digitLimit ++ " digits) for integer string conversion; "
    ++ limitAdvice

def Refusal.message : Refusal → String
  | malformed base text =>
    "invalid literal for int() with base " ++ natText base ++ ": "
      ++ String.ofList ((Text.literalChars text.toList).take 200)
  | tooLong digits =>
    "Exceeds the limit (" ++ natText digitLimit ++ " digits) for integer string conversion: value has "
      ++ natText digits ++ " digits; " ++ limitAdvice

/-- The value of a digit in a base: a decimal digit of any script or a letter. -/
def digit? (base : Nat) (c : Char) : Option Nat :=
  let value :=
    if c.isLower then some (c.toNat - 0x57)
    else if c.isUpper then some (c.toNat - 0x37)
    else Text.decimalValue? c
  value.filter (· < base)

/-- Reads the rest of a numeral after a digit; `number` is the value so far. -/
def digitsFrom (base number : Nat) : List Char → Option Nat
  | [] => some number
  | '_' :: c :: cs => do digitsFrom base (number * base + (← digit? base c)) cs
  | c :: cs => do digitsFrom base (number * base + (← digit? base c)) cs

def numeral? (base : Nat) : List Char → Option Nat
  | [] => none
  | c :: cs => do digitsFrom base (← digit? base c) cs

/-- Drops the marker that may introduce a numeral of base two, eight or sixteen. -/
def dropMarker (base : Nat) : List Char → List Char
  | '0' :: m :: cs =>
    if (base = 2 ∧ m.toLower = 'b') ∨ (base = 8 ∧ m.toLower = 'o') ∨ (base = 16 ∧ m.toLower = 'x') then
      match cs with
      | '_' :: rest => rest
      | _ => cs
    else '0' :: m :: cs
  | cs => cs

/-- Reads a numeral after its sign. A base that is no power of two falls under the limit. -/
def magnitude? (base : Nat) (cs : List Char) : Option (Except Nat Nat) :=
  let digits := (cs.filter (· ≠ '_')).length
  if digits ≤ digitLimit ∨ base = 2 ∨ base = 8 ∨ base = 16 then
    (numeral? base (dropMarker base cs)).map .ok
  else if cs.all fun c => c = '_' ∨ (digit? base c).isSome then some (.error digits)
  else none

/-- Whether a numeral has a leading minus, and the numeral without its sign. -/
def splitSign : List Char → Bool × List Char
  | '-' :: cs => (true, cs)
  | '+' :: cs => (false, cs)
  | cs => (false, cs)

def read (base : Nat) (s : String) : Except Refusal Int :=
  let cs := s.toList
  let blank := if cs.all (·.toNat < 128) then Text.isWhiteSpace else Text.isBlank
  let (negative, digits) := splitSign (Text.trimBy blank cs)
  match magnitude? base digits with
  | some (.ok n) => .ok (if negative then -(n : Int) else n)
  | some (.error digits) => .error (.tooLong digits)
  | none => .error (.malformed base s)

end CatalogSteward.Decimal
