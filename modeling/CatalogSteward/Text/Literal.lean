import CatalogSteward.Text.Hex
import CatalogSteward.Text.Printable

/-!
# Literal text

Messages show a value between quotes, so that its ends and its invisible characters can be seen. The
quote is the single one unless the text holds a single quote and no double one. Inside, the quote, the
backslash and every character that is not printable are escaped.
-/

namespace CatalogSteward.Text

def literalQuote (cs : List Char) : Char :=
  if cs.contains '\'' && !cs.contains '"' then '"' else '\''

def literalChar (quote c : Char) : List Char :=
  if c = quote ∨ c = '\\' then ['\\', c]
  else if c = '\n' then ['\\', 'n']
  else if c = '\r' then ['\\', 'r']
  else if c = '\t' then ['\\', 't']
  else if isPrintable c then [c]
  else if c.toNat < 0x100 then '\\' :: 'x' :: hex 2 c.toNat
  else if c.toNat < 0x10000 then '\\' :: 'u' :: hex 4 c.toNat
  else '\\' :: 'U' :: hex 8 c.toNat

def literalChars (cs : List Char) : List Char :=
  let quote := literalQuote cs
  quote :: cs.flatMap (literalChar quote) ++ [quote]

def literal (s : String) : String := String.ofList (literalChars s.toList)

def literalByte (quote : Char) (b : UInt8) : List Char :=
  if b < 0x80 then literalChar quote (Char.ofNat b.toNat) else '\\' :: 'x' :: hex 2 b.toNat

/-- A string of bytes between quotes, marked by a leading `b`. -/
def literalBytes (bs : List UInt8) : String :=
  let quote := literalQuote (bs.map fun b => Char.ofNat b.toNat)
  String.ofList ('b' :: quote :: bs.flatMap (literalByte quote) ++ [quote])

end CatalogSteward.Text
