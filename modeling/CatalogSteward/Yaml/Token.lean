import CatalogSteward.Text.Hex
import CatalogSteward.Text.Utf8
import CatalogSteward.Yaml.Block
import CatalogSteward.Yaml.Plain
import CatalogSteward.Yaml.Quoted

/-!
# Tokens of a document

A document is cut into tokens. Indentation shows as the start and end of block collections. A key needs
no mark before it when it stands on one line: its token is remembered as a possible key, and when a colon
follows, the key mark, and the start of a mapping if the key opens one, are put before it.
-/

namespace CatalogSteward.Yaml

inductive Directive where
  | version (major : Nat)
  | handle (name text : String)
  | other
  deriving DecidableEq, Repr

/-- A token. A `broken` one stands where no token could be formed. -/
inductive Token where
  | directive (d : Directive)
  | documentStart
  | documentEnd
  | blockSequenceStart
  | blockMappingStart
  | blockEnd
  | flowSequenceStart
  | flowSequenceEnd
  | flowMappingStart
  | flowMappingEnd
  | blockEntry
  | flowEntry
  | key
  | value
  | reference (name : String)
  | anchor (name : String)
  | tag (handle : Option String) (suffix : String)
  | scalar (plain : Bool) (text : String)
  | broken (fault : Fault)
  deriving DecidableEq, Repr

namespace Token

/-! ### Directives, tags and anchors -/

def isUriChar (c : Char) : Bool := c.isAlphanum || "-;/?:@&=+$,_.!~*'()[]%".toList.contains c

/-- The characters that a run of escaped bytes stands for; the bytes are held newest first. -/
def ofBytes (held : List UInt8) : Except Problem (List Char) :=
  match Text.decodeUtf8 held.reverse with
  | some cs => .ok cs
  | none => .error .malformed

/-- Replaces the escapes of a tag by the characters they stand for. -/
def unescapeFrom (held : List UInt8) : List Char → Except Problem (List Char)
  | [] => ofBytes held
  | '%' :: a :: b :: cs =>
    match Text.ofHex? [a, b] with
    | some n => unescapeFrom (UInt8.ofNat n :: held) cs
    | none => .error .malformed
  | c :: cs => do
    if c = '%' then .error .malformed
    else return (← ofBytes held) ++ c :: (← unescapeFrom [] cs)

def readUri (spots : List Spot) : Except Problem (String × List Spot) := do
  let (raw, rest) := spanChars isUriChar spots
  if raw.isEmpty then .error .malformed
  else return (String.ofList (← unescapeFrom [] raw), rest)

def endsWord (spots : List Spot) : Bool := endsAt (fun c => c == ' ' || isBreak c) spots

def readHandle (spots : List Spot) : Except Problem (String × List Spot) :=
  match spanChars isNameChar spots with
  | (name, s :: rest) =>
    if s.char = '!' then .ok (String.ofList ('!' :: name ++ ['!']), rest)
    else if s.char = ' ' && name.isEmpty then .ok ("!", s :: rest)
    else .error .malformed
  | (_, []) => .error .malformed

def readTag (spots : List Spot) : Except Problem (Token × List Spot) := do
  let (token, rest) ←
    match spots with
    | [] => .ok (tag none "!", [])
    | s :: rest =>
      if s.char = '<' then do
        let (suffix, rest) ← readUri rest
        match rest with
        | t :: rest => if t.char = '>' then .ok (tag none suffix, rest) else .error .malformed
        | [] => .error .malformed
      else if isSeparator s.char then .ok (tag none "!", s :: rest)
      else do
        let word := (spots.takeWhile fun s => !(s.char == ' ' || isBreak s.char)).map (·.char)
        let (handle, rest) ← if word.contains '!' then readHandle spots else .ok ("!", spots)
        let (suffix, rest) ← readUri rest
        .ok (tag (some handle) suffix, rest)
  if endsWord rest then .ok (token, rest) else .error .malformed

def readName (spots : List Spot) : Except Problem (String × List Spot) :=
  let (name, rest) := spanChars isNameChar spots
  let ended := endsAt (fun c => isSeparator c || "?:,]\x7d%@`".toList.contains c) rest
  if name.isEmpty || !ended then .error .malformed else .ok (String.ofList name, rest)

def readNumber (spots : List Spot) : Except Problem (Nat × List Spot) :=
  let (digits, rest) := spanChars Char.isDigit spots
  if digits.isEmpty then .error .malformed
  else if Decimal.digitLimit < digits.length then
    .error (.fault (.integer (.tooLong digits.length)))
  else .ok (digits.foldl (fun n c => n * 10 + (c.toNat - 0x30)) 0, rest)

def readVersion (spots : List Spot) : Except Problem (Directive × List Spot) := do
  let (major, rest) ← readNumber (skipSpaces spots)
  match rest with
  | s :: rest =>
    if s.char = '.' then do
      let (_, rest) ← readNumber rest
      if endsWord rest then .ok (.version major, rest) else .error .malformed
    else .error .malformed
  | [] => .error .malformed

def readHandleDirective (spots : List Spot) : Except Problem (Directive × List Spot) := do
  match skipSpaces spots with
  | s :: rest =>
    if s.char = '!' then do
      let (name, rest) ← readHandle rest
      if rest.head?.map (·.char) = some ' ' then do
        let (text, rest) ← readUri (skipSpaces rest)
        if endsWord rest then .ok (.handle name text, rest) else .error .malformed
      else .error .malformed
    else .error .malformed
  | [] => .error .malformed

def readDirective (spots : List Spot) : Except Problem (Token × List Spot) := do
  let (name, rest) := spanChars isNameChar spots
  if name.isEmpty || !endsWord rest then .error .malformed
  else do
    let (d, rest) ←
      if name = "YAML".toList then readVersion rest
      else if name = "TAG".toList then readHandleDirective rest
      else .ok (.other, skipLine rest)
    return (directive d, ← skipIgnoredLine rest)

end Token

/-! ### The state of reading -/

/-- A token that may turn out to be a key: its number, its place, and whether the indentation demands
that it is one. -/
structure PossibleKey where
  number : Nat
  required : Bool
  line : Nat
  column : Nat
  index : Nat
  deriving DecidableEq, Repr

/-- What is known between two tokens: the depth of brackets and braces, the columns of the open block
collections, the innermost first, whether a key may start here, the possible key of every depth, and
the tokens so far, newest first, with their number. -/
structure Lexer where
  flow : Nat
  columns : List Nat
  keyAllowed : Bool
  keys : List (Nat × PossibleKey)
  tokens : List Token
  count : Nat
  deriving Repr

namespace Lexer

def start : Lexer := ⟨0, [], true, [], [], 0⟩

def emit (t : Token) (lx : Lexer) : Lexer := { lx with tokens := t :: lx.tokens, count := lx.count + 1 }

def insertBefore (number : Nat) (t : Token) (lx : Lexer) : Lexer :=
  let later := lx.count - number
  { lx with tokens := lx.tokens.take later ++ t :: lx.tokens.drop later, count := lx.count + 1 }

/-- The greatest distance between the start of a key without a mark and its colon. -/
def keyReach : Nat := 1024

/-- Forgets the possible keys that a colon at the given place would be too late for. -/
def forgetStale (s : Spot) (lx : Lexer) : Except Problem Lexer :=
  let isStale (k : PossibleKey) : Bool := k.line != s.line || k.index + keyReach < s.index
  if lx.keys.any fun k => isStale k.2 && k.2.required then .error .malformed
  else .ok { lx with keys := lx.keys.filter fun k => !isStale k.2 }

def forgetKey (lx : Lexer) : Except Problem Lexer :=
  if lx.keys.any fun k => k.1 == lx.flow && k.2.required then .error .malformed
  else .ok { lx with keys := lx.keys.filter fun k => k.1 != lx.flow }

def noteKey (s : Spot) (lx : Lexer) : Except Problem Lexer := do
  if lx.keyAllowed then
    let required := lx.flow == 0 && lx.columns.head? == some s.column
    let lx ← lx.forgetKey
    .ok { lx with keys := (lx.flow, ⟨lx.count, required, s.line, s.column, s.index⟩) :: lx.keys }
  else .ok lx

/-- Closes the block collections that start to the right of the given column. -/
def closeTo (column : Nat) (lx : Lexer) : Lexer :=
  if lx.flow ≠ 0 then lx
  else
    let closed := (lx.columns.takeWhile (column < ·)).length
    { lx with
      columns := lx.columns.drop closed
      tokens := List.replicate closed .blockEnd ++ lx.tokens
      count := lx.count + closed }

def closeAll (lx : Lexer) : Lexer :=
  if lx.flow ≠ 0 then lx
  else
    { lx with
      columns := []
      tokens := List.replicate lx.columns.length .blockEnd ++ lx.tokens
      count := lx.count + lx.columns.length }

/-- Whether a block collection at the given column is a new one. -/
def opensAt (column : Nat) (lx : Lexer) : Bool :=
  match lx.columns with
  | [] => true
  | current :: _ => current < column

/-- Opens a block collection at the given column, unless it is open. -/
def openBlock (column : Nat) (t : Token) (lx : Lexer) : Lexer :=
  if lx.opensAt column then { lx with columns := column :: lx.columns }.emit t else lx

/-- The column that the lines of a nested scalar must reach. -/
def leastColumn (lx : Lexer) : Nat :=
  match lx.columns with
  | [] => 0
  | current :: _ => current + 1

abbrev Result := Except Problem (Lexer × List Spot)

/-- A directive or a mark between documents, which ends everything that is open. -/
def boundary (t : Token) (rest : List Spot) (lx : Lexer) : Result := do
  let lx ← lx.closeAll.forgetKey
  .ok ({ lx with keyAllowed := false }.emit t, rest)

def openFlow (t : Token) (s : Spot) (rest : List Spot) (lx : Lexer) : Result := do
  let lx ← lx.noteKey s
  .ok ({ lx with flow := lx.flow + 1, keyAllowed := true }.emit t, rest)

def closeFlow (t : Token) (rest : List Spot) (lx : Lexer) : Result := do
  let lx ← lx.forgetKey
  .ok ({ lx with flow := lx.flow - 1, keyAllowed := false }.emit t, rest)

/-- A mark that starts an entry, or a key, of a block collection. -/
def mark (opening t : Token) (allowed : Bool) (s : Spot) (rest : List Spot) (lx : Lexer) : Result := do
  if lx.flow = 0 ∧ ¬lx.keyAllowed then .error .malformed
  else do
    let lx := if lx.flow = 0 then lx.openBlock s.column opening else lx
    let lx ← { lx with keyAllowed := allowed }.forgetKey
    .ok (lx.emit t, rest)

/-- The colon before a value. A possible key before it becomes a key. -/
def colon (s : Spot) (rest : List Spot) (lx : Lexer) : Result :=
  match lx.keys.find? fun k => k.1 == lx.flow with
  | some (_, k) =>
    let opens := lx.flow == 0 && lx.opensAt k.column
    let lx := { lx with keys := lx.keys.filter (fun k => k.1 != lx.flow), keyAllowed := false }
    let lx := lx.insertBefore k.number .key
    let lx :=
      if opens then
        { lx with columns := k.column :: lx.columns }.insertBefore k.number .blockMappingStart
      else lx
    .ok (lx.emit .value, rest)
  | none => lx.mark .blockMappingStart .value (lx.flow == 0) s rest

/-- A token that may be a key and after which none may start at once. -/
def content (s : Spot) (read : Except Problem (Token × List Spot)) (lx : Lexer) : Result := do
  let lx ← lx.noteKey s
  let (t, rest) ← read
  .ok ({ lx with keyAllowed := false }.emit t, rest)

def block (folded : Bool) (rest : List Spot) (lx : Lexer) : Result := do
  let lx ← { lx with keyAllowed := true }.forgetKey
  let (text, rest) ← Block.scan folded (max 1 lx.leastColumn) rest
  .ok (lx.emit (.scalar false (String.ofList text)), rest)

def plain (s : Spot) (spots : List Spot) (lx : Lexer) : Result := do
  let lx ← lx.noteKey s
  let scan := Plain.scanFrom (lx.flow ≠ 0) lx.leastColumn .none spots
  .ok ({ lx with keyAllowed := scan.broken }.emit (.scalar true (String.ofList scan.text)), scan.rest)

def quoted (read : Except Problem (List Char × List Spot)) : Except Problem (Token × List Spot) :=
  read.map fun r => (.scalar false (String.ofList r.1), r.2)

def token (s : Spot) (rest : List Spot) (lx : Lexer) : Result :=
  let spots := s :: rest
  let flow := lx.flow ≠ 0
  let alone := endsAt isSeparator rest
  if s.char = '%' ∧ s.column = 0 then do
    let (t, rest) ← Token.readDirective rest
    lx.boundary t rest
  else if isMark '-' spots then lx.boundary .documentStart (rest.drop 2)
  else if isMark '.' spots then lx.boundary .documentEnd (rest.drop 2)
  else match s.char with
  | '[' => lx.openFlow .flowSequenceStart s rest
  | '\x7b' => lx.openFlow .flowMappingStart s rest
  | ']' => lx.closeFlow .flowSequenceEnd rest
  | '\x7d' => lx.closeFlow .flowMappingEnd rest
  | ',' => do
    let lx ← { lx with keyAllowed := true }.forgetKey
    .ok (lx.emit .flowEntry, rest)
  | '*' => lx.content s ((Token.readName rest).map fun r => (.reference r.1, r.2))
  | '&' => lx.content s ((Token.readName rest).map fun r => (.anchor r.1, r.2))
  | '!' => lx.content s (Token.readTag rest)
  | '\'' => lx.content s (quoted (Quoted.singleFrom .none rest))
  | '"' => lx.content s (quoted (Quoted.doubleFrom (.text .none) rest))
  | c =>
    if c = '-' ∧ alone then lx.mark .blockSequenceStart .blockEntry true s rest
    else if c = '?' ∧ (flow ∨ alone) then lx.mark .blockMappingStart .key (!flow) s rest
    else if c = ':' ∧ (flow ∨ alone) then lx.colon s rest
    else if c = '|' ∧ !flow then lx.block false rest
    else if c = '>' ∧ !flow then lx.block true rest
    else if Plain.starts flow spots then lx.plain s spots
    else .error .malformed

/-- Skips spaces, comments and line breaks; `comment` tells that a comment has started, `broken` that a
line has ended. -/
def skipGap (comment broken : Bool) : List Spot → Bool × List Spot
  | [] => (broken, [])
  | s :: rest =>
    if isBreak s.char then skipGap false true rest
    else if comment || s.char = ' ' then skipGap comment broken rest
    else if s.char = '#' then skipGap true broken rest
    else (broken, s :: rest)

/-- The tokens that are settled: those before the first possible key. -/
def settled (lx : Lexer) : List Token :=
  let first := lx.keys.foldl (fun n k => min n k.2.number) lx.count
  lx.tokens.reverse.take first

/-- The tokens of the whole text, of which at most `steps` are read. -/
def run (steps : Nat) (lx : Lexer) (spots : List Spot) : Except Problem (List Token) :=
  match steps, spots with
  | 0, _ => .error .malformed
  | _, [] =>
    if lx.keys.any fun k => k.2.required then .error .malformed else .ok lx.closeAll.tokens.reverse
  | steps + 1, s :: rest => do
    let before ← lx.forgetStale s
    let (broken, spots) := skipGap false false (s :: rest)
    match spots with
    | [] => run steps before []
    | s :: rest =>
      let lx ← before.forgetStale s
      let lx := if broken && lx.flow == 0 then { lx with keyAllowed := true } else lx
      match (lx.closeTo s.column).token s rest with
      | .ok (lx, rest) => run steps lx rest
      | .error (.fault fault) => .ok (before.settled ++ [.broken fault])
      | .error .malformed => .error .malformed

end Lexer

def Token.ofText (text : List Char) : Except Problem (List Token) :=
  let spots := spotsFrom 0 0 0 text
  let spots := if spots.head?.map (·.char) = some byteOrderMark then spots.drop 1 else spots
  if text.all isAllowed then Lexer.run (text.length + 2) .start spots else .error .malformed

end CatalogSteward.Yaml
