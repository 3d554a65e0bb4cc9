/-!
# Ranges of code points

Classes of characters are kept as tables of code point ranges, both ends included.
-/

namespace CatalogSteward.Text

abbrev Range := Nat × Nat

def inRanges (table : Array Range) (n : Nat) : Bool :=
  table.any fun range => range.1 ≤ n && n ≤ range.2

end CatalogSteward.Text
