import CatalogSteward.Text.Blank

/-!
# Quoted identifiers

An identifier is written between double quotes, with every double quote inside it written twice, so that
no character of a name can end it. A server cannot store the null character; what follows the first one
is not written. The reader takes one identifier from the front of a text.
-/

namespace CatalogSteward.Identifier

def quoteChar (c : Char) : List Char := if c = '"' then ['"', '"'] else [c]

def storable (name : List Char) : List Char := name.takeWhile (· ≠ '\x00')

def quoteChars (name : List Char) : List Char :=
  '"' :: (storable name).flatMap quoteChar ++ ['"']

def quote (name : String) : String := String.ofList (quoteChars name.toList)

/-- Reads the rest of an identifier: the name up to the quote that stands alone, and what follows. -/
def body? : List Char → Option (List Char × List Char)
  | [] => none
  | '"' :: '"' :: cs => (body? cs).map fun r => ('"' :: r.1, r.2)
  | '"' :: cs => some ([], cs)
  | c :: cs => (body? cs).map fun r => (c :: r.1, r.2)

def read? : List Char → Option (List Char × List Char)
  | '"' :: cs => body? cs
  | _ => none

end CatalogSteward.Identifier
