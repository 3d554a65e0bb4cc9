import CatalogSteward.Yaml.Basic

/-!
# Block scalars

A block scalar is a run of lines below a header, all indented at least as deeply as the first of them.
The literal style keeps the line breaks; the folded style joins two lines that start without a blank by
a space. The header may give the indentation, and whether the breaks at the end are kept or dropped; one
is kept otherwise.
-/

namespace CatalogSteward.Yaml.Block

inductive Chomping where
  | clip
  | strip
  | keep
  deriving DecidableEq, Repr

/-- A header: what becomes of the breaks at the end, and the indentation if it is given. -/
structure Header where
  chomping : Chomping
  increment : Option Nat
  deriving DecidableEq, Repr

def chomping? (c : Char) : Option Chomping :=
  if c = '+' then some .keep else if c = '-' then some .strip else none

/-- The number given by a digit, which may not be zero. -/
def increment? (c : Char) : Option (Except Problem Nat) :=
  if '1' ≤ c ∧ c ≤ '9' then some (.ok (c.toNat - 0x30))
  else if c = '0' then some (.error .malformed)
  else none

def readChomping : List Spot → Option Chomping × List Spot
  | [] => (none, [])
  | s :: rest =>
    match chomping? s.char with
    | some chomping => (some chomping, rest)
    | none => (none, s :: rest)

def readIncrement : List Spot → Except Problem (Option Nat × List Spot)
  | [] => .ok (none, [])
  | s :: rest =>
    match increment? s.char with
    | some increment => increment.map fun n => (some n, rest)
    | none => .ok (none, s :: rest)

/-- Reads a header: the two indicators in either order, and nothing else but a comment. -/
def readHeader (spots : List Spot) : Except Problem (Header × List Spot) := do
  let (early, spots) := readChomping spots
  let (increment, spots) ← readIncrement spots
  let (late, spots) := if early.isNone && increment.isSome then readChomping spots else (early, spots)
  if endsAt (fun c => c == ' ' || isBreak c) spots then
    return (⟨late.getD .clip, increment⟩, ← skipIgnoredLine spots)
  else .error .malformed

/-- The greatest column that the leading spaces of the next lines reach. -/
def leadingColumn (greatest : Nat) : List Spot → Nat
  | [] => greatest
  | s :: rest =>
    if isBreak s.char then leadingColumn greatest rest
    else if s.char = ' ' then leadingColumn (max greatest (s.column + 1)) rest
    else greatest

/-- The line before the current one: its break, and whether it started without a blank. -/
structure Line where
  lineBreak : Char
  unindented : Bool
  deriving DecidableEq, Repr

/-- A place in a block scalar: before a line, with the line before it and the breaks since then, newest
first; or inside a line. -/
inductive Place where
  | margin (previous : Option Line) (breaks : List Char)
  | inside (unindented : Bool)
  deriving DecidableEq, Repr

/-- What stands between the line before and a line that starts with the given character. -/
def join (folded : Bool) (previous : Option Line) (breaks : List Char) (c : Char) : List Char :=
  match previous with
  | none => breaks.reverse
  | some line =>
    if folded && line.lineBreak == '\n' && line.unindented && !isSpaceOrTab c then
      if breaks.isEmpty then [' '] else breaks.reverse
    else line.lineBreak :: breaks.reverse

def tail (chomping : Chomping) (previous : Option Line) (breaks : List Char) : List Char :=
  (match chomping, previous with
  | .strip, _ | _, none => []
  | _, some line => [line.lineBreak])
    ++ (if chomping = .keep then breaks.reverse else [])

def scanFrom (folded : Bool) (chomping : Chomping) (indent : Nat) :
    Place → List Spot → List Char × List Spot
  | .margin previous breaks, [] => (tail chomping previous breaks, [])
  | .inside _, [] => ([], [])
  | .margin previous breaks, s :: rest =>
    if s.char = ' ' ∧ s.column < indent then scanFrom folded chomping indent (.margin previous breaks) rest
    else if isBreak s.char then
      scanFrom folded chomping indent (.margin previous (breakChar s.char :: breaks)) rest
    else if s.column = indent then
      let r := scanFrom folded chomping indent (.inside (!isSpaceOrTab s.char)) rest
      (join folded previous breaks s.char ++ s.char :: r.1, r.2)
    else (tail chomping previous breaks, s :: rest)
  | .inside unindented, s :: rest =>
    if isBreak s.char then
      scanFrom folded chomping indent (.margin (some ⟨breakChar s.char, unindented⟩) []) rest
    else
      let r := scanFrom folded chomping indent (.inside unindented) rest
      (s.char :: r.1, r.2)

/-- Reads a block scalar after its mark; its lines are indented by at least `least` columns. -/
def scan (folded : Bool) (least : Nat) (spots : List Spot) : Except Problem (List Char × List Spot) := do
  let (header, spots) ← readHeader spots
  let indent := match header.increment with
    | some n => least + n - 1
    | none => max least (leadingColumn 0 spots)
  return scanFrom folded header.chomping indent (.margin none []) spots

end CatalogSteward.Yaml.Block
