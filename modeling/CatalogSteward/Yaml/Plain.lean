import CatalogSteward.Yaml.Basic

/-!
# Plain scalars

A scalar without quotes goes on over single blanks and over line breaks, as long as the following lines
are indented deeply enough, and ends before a comment, before a colon with nothing after it, and, within
brackets or braces, before their punctuation.
-/

namespace CatalogSteward.Yaml.Plain

def isFlowMark (c : Char) : Bool := c == ',' || c == '[' || c == ']' || c == '{' || c == '}'

/-- Whether a word of a scalar stops at a character with the given text after it. -/
def stopsAt (flow : Bool) (c : Char) (rest : List Spot) : Bool :=
  isSeparator c ||
    (c == ':' && endsAt (fun d => isSeparator d || (flow && isFlowMark d)) rest) ||
    (flow && (isFlowMark c || c == '?'))

/-- A scalar's text, whether a line ended after it, and the text that follows. -/
structure Scan where
  text : List Char
  broken : Bool
  rest : List Spot
  deriving Repr

/-- Reads on in a scalar of which `gap` has been read since its last character. -/
def scanFrom (flow : Bool) (indent : Nat) (gap : Gap) : List Spot → Scan
  | [] => ⟨[], gap.isBroken, []⟩
  | s :: rest =>
    if isBreak s.char then scanFrom flow indent (gap.addBreak s.char) rest
    else if s.char = ' ' then scanFrom flow indent (gap.addBlank ' ') rest
    else if stopsAt flow s.char rest || (gap.isBroken && isDocumentMark (s :: rest))
        || (gap ≠ .none && (s.char = '#' || (!flow && s.column < indent))) then
      ⟨[], gap.isBroken, s :: rest⟩
    else
      let r := scanFrom flow indent .none rest
      ⟨gap.text ++ s.char :: r.text, r.broken, r.rest⟩

def starts (flow : Bool) : List Spot → Bool
  | [] => false
  | s :: rest =>
    let c := s.char
    if isSeparator c || "?:,[]\x7b\x7d#&*!|>'\"%@`-".toList.contains c then
      !endsAt isSeparator rest && (c == '-' || (!flow && (c == '?' || c == ':')))
    else true

end CatalogSteward.Yaml.Plain
