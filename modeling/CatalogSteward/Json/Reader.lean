import CatalogSteward.Json.Basic

/-!
# Reading JSON

The reader takes any JSON text. Numbers with a fraction or an exponent are floating point numbers, all
others integers. Besides JSON itself it takes the names `NaN`, `Infinity` and `-Infinity`, which the
writer uses for the numbers that JSON does not know.
-/

namespace CatalogSteward.Json

def isSpace (c : Char) : Bool := c = ' ' || c = '\n' || c = '\r' || c = '\t'

def skipSpace (cs : List Char) : List Char := cs.dropWhile isSpace

def unit? (a b c d : Char) : Option Nat := Text.ofHex? [a, b, c, d]

def simpleEscape? (c : Char) : Option Char :=
  if c = '"' ∨ c = '\\' ∨ c = '/' then some c
  else if c = 'n' then some '\n'
  else if c = 'r' then some '\r'
  else if c = 't' then some '\t'
  else if c = 'f' then some '\x0c'
  else if c = 'b' then some '\x08'
  else none

/-- Reads a string after its opening quote and returns it with what follows the closing one. A surrogate
is accepted only as the first half of a pair. -/
def string? : List Char → Option (List Char × List Char)
  | [] => none
  | '"' :: cs => some ([], cs)
  | '\\' :: 'u' :: a :: b :: c :: d :: cs => do
    let n ← unit? a b c d
    if n < 0xD800 ∨ 0xDFFF < n then
      let (s, rest) ← string? cs
      some (Char.ofNat n :: s, rest)
    else
      match cs with
      | '\\' :: 'u' :: a :: b :: c :: d :: cs => do
        let m ← unit? a b c d
        if n < 0xDC00 ∧ 0xDC00 ≤ m ∧ m ≤ 0xDFFF then
          let (s, rest) ← string? cs
          some (Char.ofNat (0x10000 + (n - 0xD800) * 0x400 + (m - 0xDC00)) :: s, rest)
        else none
      | _ => none
  | '\\' :: c :: cs => do
    let c ← simpleEscape? c
    let (s, rest) ← string? cs
    some (c :: s, rest)
  | c :: cs =>
    if c.toNat < 0x20 ∨ c = '\\' then none
    else do
      let (s, rest) ← string? cs
      some (c :: s, rest)

def isNumberChar (c : Char) : Bool :=
  ('0' ≤ c && c ≤ '9') || c = '-' || c = '+' || c = '.' || c = 'e' || c = 'E'

def isAsciiDigit (c : Char) : Bool := '0' ≤ c && c ≤ '9'

/-- Whether the digits before the decimal point are well formed: no needless zero leads. -/
def isWhole (ds : List Char) : Bool := ds = ['0'] || (!ds.isEmpty && ds.head? != some '0')

def number? (cs : List Char) : Option Json :=
  let (negative, body) := match cs with
    | '-' :: cs => (true, cs)
    | cs => (false, cs)
  let whole := body.takeWhile isAsciiDigit
  let rest := body.dropWhile isAsciiDigit
  if !isWhole whole then none
  else if rest.isEmpty then
    let n : Int := (Binary64.digitsValue whole : Nat)
    some (.int (if negative then -n else n))
  else
    let fractionFits := match rest with
      | '.' :: c :: _ => isAsciiDigit c
      | '.' :: [] => false
      | _ => true
    if fractionFits then (Binary64.magnitude? negative body).map .real else none

mutual

/-- Reads a value. The first argument bounds the depth of the recursion; the length of the text
suffices. -/
def value? : Nat → List Char → Option (Json × List Char)
  | 0, _ => none
  | fuel + 1, cs =>
    match skipSpace cs with
    | 'n' :: 'u' :: 'l' :: 'l' :: cs => some (.null, cs)
    | 't' :: 'r' :: 'u' :: 'e' :: cs => some (.bool true, cs)
    | 'f' :: 'a' :: 'l' :: 's' :: 'e' :: cs => some (.bool false, cs)
    | 'N' :: 'a' :: 'N' :: cs => some (.real .nan, cs)
    | 'I' :: 'n' :: 'f' :: 'i' :: 'n' :: 'i' :: 't' :: 'y' :: cs => some (.real (.infinity false), cs)
    | '-' :: 'I' :: 'n' :: 'f' :: 'i' :: 'n' :: 'i' :: 't' :: 'y' :: cs =>
      some (.real (.infinity true), cs)
    | '"' :: cs => (string? cs).map fun r => (.str (String.ofList r.1), r.2)
    | '[' :: cs =>
      match skipSpace cs with
      | ']' :: cs => some (.list [], cs)
      | cs => (items? fuel cs).map fun r => (.list r.1, r.2)
    | '{' :: cs =>
      match skipSpace cs with
      | '}' :: cs => some (.object [], cs)
      | cs => (fields? fuel cs).map fun r => (.object r.1, r.2)
    | cs => (number? (cs.takeWhile isNumberChar)).map fun j => (j, cs.dropWhile isNumberChar)

/-- Reads the items of a list up to the closing bracket. -/
def items? : Nat → List Char → Option (List Json × List Char)
  | 0, _ => none
  | fuel + 1, cs => do
    let (item, cs) ← value? fuel cs
    match skipSpace cs with
    | ',' :: cs => (items? fuel cs).map fun r => (item :: r.1, r.2)
    | ']' :: cs => some ([item], cs)
    | _ => none

/-- Reads the fields of an object up to the closing brace. -/
def fields? : Nat → List Char → Option (List (String × Json) × List Char)
  | 0, _ => none
  | fuel + 1, cs =>
    match skipSpace cs with
    | '"' :: cs => do
      let (name, cs) ← string? cs
      match skipSpace cs with
      | ':' :: cs => do
        let (item, cs) ← value? fuel cs
        let field := (String.ofList name, item)
        match skipSpace cs with
        | ',' :: cs => (fields? fuel cs).map fun r => (field :: r.1, r.2)
        | '}' :: cs => some ([field], cs)
        | _ => none
      | _ => none
    | _ => none

end

def read? (s : String) : Option Json := do
  let cs := s.toList
  let (j, rest) ← value? (cs.length + 1) cs
  if (skipSpace rest).isEmpty then some j else none

end CatalogSteward.Json
