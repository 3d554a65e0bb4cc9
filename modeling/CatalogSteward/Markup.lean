/-!
# Markup

Console lines are written in a markup where a bracketed word that starts with a lower-case letter or
with one of `#`, `/` and `@` is a tag. Escaping makes a text stand for itself: a backslash is put before
every bracket that opens such a word, and the backslashes that stand before it already are doubled.
-/

namespace CatalogSteward.Markup

/-- Whether a bracket before this text opens a tag: a tag ends at the first closing bracket and holds no
further opening one. -/
def opensTag : List Char → Bool
  | [] => false
  | c :: cs =>
    (('a' ≤ c && c ≤ 'z') || c == '#' || c == '/' || c == '@') &&
      (cs.dropWhile fun d => d != '[' && d != ']').head? == some ']'

/-- Escapes the tags of a text; `slashes` backslashes stand directly before it. -/
def escapeFrom (slashes : Nat) : List Char → List Char
  | [] => []
  | '\\' :: cs => '\\' :: escapeFrom (slashes + 1) cs
  | '[' :: cs =>
    if opensTag cs then List.replicate (slashes + 1) '\\' ++ '[' :: escapeFrom 0 cs
    else '[' :: escapeFrom 0 cs
  | c :: cs => c :: escapeFrom 0 cs

def closeSlash (cs : List Char) : List Char :=
  match cs.reverse with
  | ['\\'] => cs ++ ['\\']
  | '\\' :: c :: _ => if c = '\\' then cs else cs ++ ['\\']
  | _ => cs

def escape (s : String) : String := String.ofList (closeSlash (escapeFrom 0 s.toList))

end CatalogSteward.Markup
