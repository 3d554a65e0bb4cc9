import CatalogSteward.Text.Hex
import CatalogSteward.Yaml.Basic

/-!
# Quoted scalars

A scalar between single quotes holds every character as it is, a single quote written twice. Between
double quotes a backslash starts an escape. In both, line breaks are folded: the blanks around a break
do not count, and a single one stands for a space. A line that separates documents may not occur inside.
-/

namespace CatalogSteward.Yaml.Quoted

def escape? (c : Char) : Option Char :=
  match c with
  | '0' => some '\x00'
  | 'a' => some '\x07'
  | 'b' => some '\x08'
  | 't' | '\t' => some '\t'
  | 'n' => some '\n'
  | 'v' => some '\x0b'
  | 'f' => some '\x0c'
  | 'r' => some '\r'
  | 'e' => some '\x1b'
  | ' ' | '"' | '\\' | '/' => some c
  | 'N' => some (Char.ofNat 0x85)
  | '_' => some (Char.ofNat 0xA0)
  | 'L' => some (Char.ofNat 0x2028)
  | 'P' => some (Char.ofNat 0x2029)
  | _ => none

def charOfCode (digits : List Char) : Except Problem Char :=
  match Text.ofHex? digits with
  | none => .error .malformed
  | some n =>
    if 0x10FFFF < n then .error (.fault (.escape n))
    else if 0xD800 ≤ n ∧ n ≤ 0xDFFF then .error .malformed
    else .ok (Char.ofNat n)

/-- Puts the text of a gap and more characters before what is read next. -/
def before (gap : Gap) (cs : List Char) (r : Except Problem (List Char × List Spot)) :
    Except Problem (List Char × List Spot) :=
  r.map fun r => (gap.text ++ cs ++ r.1, r.2)

def singleFrom (gap : Gap) : List Spot → Except Problem (List Char × List Spot)
  | [] => .error .malformed
  | s :: rest =>
    if isBreak s.char then singleFrom (gap.addBreak s.char) rest
    else if isSpaceOrTab s.char then singleFrom (gap.addBlank s.char) rest
    else if gap.isBroken && isDocumentMark (s :: rest) then .error .malformed
    else if s.char = '\'' then
      match rest with
      | t :: rest' =>
        if t.char = '\'' then before gap ['\''] (singleFrom .none rest') else .ok (gap.text, t :: rest')
      | [] => .ok (gap.text, [])
    else before gap [s.char] (singleFrom .none rest)

/-- A place in a scalar between double quotes: after a gap, after the backslash that follows one, or
within an escape by code, with the digits that are missing and those read, newest first. -/
inductive Place where
  | text (gap : Gap)
  | escape (gap : Gap)
  | code (gap : Gap) (missing : Nat) (digits : List Char)
  deriving DecidableEq, Repr

def codeLength? (c : Char) : Option Nat :=
  match c with
  | 'x' => some 2
  | 'u' => some 4
  | 'U' => some 8
  | _ => none

def doubleFrom : Place → List Spot → Except Problem (List Char × List Spot)
  | _, [] => .error .malformed
  | .text gap, s :: rest =>
    if isBreak s.char then doubleFrom (.text (gap.addBreak s.char)) rest
    else if isSpaceOrTab s.char then doubleFrom (.text (gap.addBlank s.char)) rest
    else if gap.isBroken && isDocumentMark (s :: rest) then .error .malformed
    else if s.char = '"' then .ok (gap.text, rest)
    else if s.char = '\\' then doubleFrom (.escape gap) rest
    else before gap [s.char] (doubleFrom (.text .none) rest)
  | .escape gap, s :: rest =>
    match escape? s.char, codeLength? s.char with
    | some c, _ => before gap [c] (doubleFrom (.text .none) rest)
    | none, some length => doubleFrom (.code gap length []) rest
    | none, none =>
      if isBreak s.char then before gap [] (doubleFrom (.text (.joined [])) rest) else .error .malformed
  | .code gap missing digits, s :: rest =>
    if (Text.hexValue? s.char).isNone then .error .malformed
    else if missing ≤ 1 then
      match charOfCode (s.char :: digits).reverse with
      | .ok c => before gap [c] (doubleFrom (.text .none) rest)
      | .error problem => .error problem
    else doubleFrom (.code gap (missing - 1) (s.char :: digits)) rest

end CatalogSteward.Yaml.Quoted
