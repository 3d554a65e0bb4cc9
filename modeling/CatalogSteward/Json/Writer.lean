import CatalogSteward.Json.Basic

/-!
# Writing JSON

A value is written on one line in ASCII: a blank follows every comma and every colon, and a character
outside printable ASCII is escaped, by a surrogate pair when it lies beyond U+FFFF.
-/

namespace CatalogSteward.Json

def unitEscape (n : Nat) : List Char := '\\' :: 'u' :: Text.hex 4 n

def escapeChar (c : Char) : List Char :=
  if c = '"' ∨ c = '\\' then ['\\', c]
  else if c = '\n' then ['\\', 'n']
  else if c = '\r' then ['\\', 'r']
  else if c = '\t' then ['\\', 't']
  else if c = '\x0c' then ['\\', 'f']
  else if c = '\x08' then ['\\', 'b']
  else if 0x20 ≤ c.toNat ∧ c.toNat ≤ 0x7E then [c]
  else if c.toNat < 0x10000 then unitEscape c.toNat
  else
    let n := c.toNat - 0x10000
    unitEscape (0xD800 + n / 0x400) ++ unitEscape (0xDC00 + n % 0x400)

def writeString (cs : List Char) : List Char := '"' :: cs.flatMap escapeChar ++ ['"']

def writeReal : Binary64 → List Char
  | .nan => "NaN".toList
  | .infinity negative => (if negative then "-Infinity" else "Infinity").toList
  | x => x.chars

mutual

def write : Json → List Char
  | .null => "null".toList
  | .bool b => (if b then "true" else "false").toList
  | .int n => Decimal.chars n
  | .real x => writeReal x
  | .str s => writeString s.toList
  | .list [] => ['[', ']']
  | .list (j :: js) => '[' :: write j ++ writeItems js
  | .object [] => ['{', '}']
  | .object ((k, j) :: fs) => '{' :: writeString k.toList ++ ':' :: ' ' :: write j ++ writeFields fs

def writeItems : List Json → List Char
  | [] => [']']
  | j :: js => ',' :: ' ' :: write j ++ writeItems js

def writeFields : List (String × Json) → List Char
  | [] => ['}']
  | (k, j) :: fs => ',' :: ' ' :: writeString k.toList ++ ':' :: ' ' :: write j ++ writeFields fs

end

def render (j : Json) : String := String.ofList j.write

end CatalogSteward.Json
