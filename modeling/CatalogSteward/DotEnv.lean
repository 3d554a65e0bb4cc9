import CatalogSteward.Text.Blank

/-!
# Variable files

A variable file binds one variable a line: a name, an equals sign and a value. Values may be quoted, and
then may span lines and hold escapes; an unquoted value ends at a comment. A name alone is declared
without a value. A line that is no binding is skipped. In a value, `${name}` and `${name:-default}`
stand for the value of another variable.

The file is read from text whose line breaks are line feeds.
-/

namespace CatalogSteward.DotEnv

abbrev Binding := String × Option String

def isInner (c : Char) : Bool := Text.isBlank c && c ≠ '\n' && c ≠ '\r'

def skipInner (cs : List Char) : List Char := cs.dropWhile isInner

/-- Drops the word `export` with the blanks after it. -/
def skipExport (cs : List Char) : List Char :=
  match cs with
  | 'e' :: 'x' :: 'p' :: 'o' :: 'r' :: 't' :: c :: rest => if isInner c then skipInner rest else cs
  | _ => cs

/-- Reads the name at the start of a line: nothing when a comment stands there, and a fault when no
name does. -/
def name? (cs : List Char) : Option (Option String × List Char) :=
  match cs with
  | '#' :: _ => some (none, cs)
  | '\'' :: rest =>
    let name := rest.takeWhile (· ≠ '\'')
    match rest.dropWhile (· ≠ '\'') with
    | _ :: after => if name.isEmpty then none else some (some (String.ofList name), after)
    | [] => none
  | _ =>
    let isNameChar (c : Char) : Bool := c ≠ '=' && c ≠ '#' && !Text.isBlank c
    let name := cs.takeWhile isNameChar
    if name.isEmpty then none else some (some (String.ofList name), cs.dropWhile isNameChar)

/-- Reads up to the closing quote, skipping quotes after a backslash. -/
def toQuote (quote : Char) : List Char → Option (List Char × List Char)
  | [] => none
  | '\\' :: c :: cs =>
    if c = quote then (toQuote quote cs).map fun r => ('\\' :: c :: r.1, r.2)
    else if c = '\\' then (toQuote quote (c :: cs)).map fun r => ('\\' :: r.1, r.2)
    else (toQuote quote cs).map fun r => ('\\' :: c :: r.1, r.2)
  | c :: cs => if c = quote then some ([], cs) else (toQuote quote cs).map fun r => (c :: r.1, r.2)

/-- Reads up to the last quote of all, which closes the value when every quote stands after a
backslash. -/
def toLastQuote (quote : Char) (cs : List Char) : Option (List Char × List Char) :=
  let after := (cs.reverse.takeWhile (· ≠ quote)).reverse
  if after.length = cs.length then none
  else some (cs.take (cs.length - after.length - 1), after)

def quoted? (quote : Char) (cs : List Char) : Option (List Char × List Char) :=
  match toQuote quote cs with
  | some r => some r
  | none => toLastQuote quote cs

/-- The character that a backslash and a letter stand for between double quotes. -/
def doubleEscape? (c : Char) : Option Char :=
  if c = '\\' ∨ c = '\'' ∨ c = '"' then some c
  else if c = 'a' then some '\x07'
  else if c = 'b' then some '\x08'
  else if c = 'f' then some '\x0c'
  else if c = 'n' then some '\n'
  else if c = 'r' then some '\r'
  else if c = 't' then some '\t'
  else if c = 'v' then some '\x0b'
  else none

/-- The character that a backslash and a letter stand for between single quotes. -/
def singleEscape? (c : Char) : Option Char := if c = '\\' ∨ c = '\'' then some c else none

/-- Replaces the escapes; any other backslash stays. -/
def unescape (escape? : Char → Option Char) : List Char → List Char
  | [] => []
  | '\\' :: c :: cs =>
    match escape? c with
    | some d => d :: unescape escape? cs
    | none => '\\' :: unescape escape? (c :: cs)
  | c :: cs => c :: unescape escape? cs

/-- The text without its first comment, which starts at a number sign after blanks. -/
def dropComment : List Char → List Char
  | [] => []
  | c :: cs =>
    if Text.isBlank c ∧ (cs.dropWhile Text.isBlank).head? = some '#' then []
    else c :: dropComment cs

/-- An unquoted value: the rest of the line without its comment and without trailing blanks. -/
def unquoted (line : List Char) : List Char :=
  ((dropComment line).reverse.dropWhile Text.isBlank).reverse

def isLineEnd (c : Char) : Bool := c = '\n' || c = '\r'

def value? (cs : List Char) : Option (List Char × List Char) :=
  match cs with
  | '\'' :: rest => (quoted? '\'' rest).map fun r => (unescape singleEscape? r.1, r.2)
  | '"' :: rest => (quoted? '"' rest).map fun r => (unescape doubleEscape? r.1, r.2)
  | _ =>
    let line := cs.takeWhile (!isLineEnd ·)
    some (unquoted line, cs.dropWhile (!isLineEnd ·))

def skipLine (cs : List Char) : List Char :=
  match cs.dropWhile (!isLineEnd ·) with
  | '\r' :: '\n' :: rest => rest
  | _ :: rest => rest
  | [] => []

/-- What follows a comment and the end of the line, if nothing else stands before it. -/
def lineEnd? (cs : List Char) : Option (List Char) :=
  let cs := match skipInner cs with
    | '#' :: rest => rest.dropWhile (!isLineEnd ·)
    | _ => cs
  match skipInner cs with
  | [] => some []
  | '\r' :: '\n' :: rest => some rest
  | c :: rest => if isLineEnd c then some rest else none

/-- Reads one binding; without one, what is left after the line. -/
def binding (cs : List Char) : Option Binding × List Char :=
  let cs := skipExport (cs.dropWhile Text.isBlank)
  match name? cs with
  | none => (none, skipLine cs)
  | some (name, cs) =>
    let cs := skipInner cs
    let valued := match cs with
      | '=' :: rest => (value? (skipInner rest)).map fun r => (some (String.ofList r.1), r.2)
      | _ => some (none, cs)
    match valued with
    | none => (none, skipLine (match cs with
      | '=' :: rest => skipInner rest
      | _ => cs))
    | some (value, cs) =>
      match lineEnd? cs with
      | none => (none, skipLine (skipInner cs))
      | some rest => (name.map fun name => (name, value), rest)

/-- The bindings of a file in their order, at most `lines` of them being looked for. -/
def bindingsWithin : Nat → List Char → List Binding
  | 0, _ => []
  | lines + 1, cs =>
    if cs.isEmpty then []
    else
      let (found, rest) := binding cs
      found.toList ++ bindingsWithin lines rest

def bindings (text : String) : List Binding :=
  bindingsWithin (text.toList.length + 1) text.toList

/-! ### References to other variables -/

/-- The value of a variable, the last binding counting; a variable without a value has the empty one. -/
def valueOf (environment : List Binding) (name : String) : Option String :=
  (environment.reverse.find? fun b => b.1 == name).map fun b => b.2.getD ""

/-- Reads a reference after its opening `${`: the name, the default and what follows. -/
def reference? (cs : List Char) : Option (List Char × Option (List Char) × List Char) :=
  let isNameChar (c : Char) : Bool := c ≠ '\x7d' && c ≠ ':'
  let name := cs.takeWhile isNameChar
  match cs.dropWhile isNameChar with
  | '\x7d' :: rest => some (name, none, rest)
  | ':' :: '-' :: rest =>
    match rest.dropWhile (· ≠ '\x7d') with
    | _ :: after => some (name, some (rest.takeWhile (· ≠ '\x7d')), after)
    | [] => none
  | _ => none

theorem reference?_shorter {cs name rest : List Char} {default : Option (List Char)}
    (h : reference? cs = some (name, default, rest)) : rest.length < cs.length := by
  have drop_le (p : Char → Bool) (l : List Char) : (l.dropWhile p).length ≤ l.length :=
    (List.dropWhile_sublist p).length_le
  simp only [reference?] at h
  have first := drop_le (fun c => decide (c ≠ '\x7d') && decide (c ≠ ':')) cs
  split at h
  · next after found =>
    simp only [Option.some.injEq, Prod.mk.injEq] at h
    rw [found, List.length_cons] at first
    rw [← h.2.2]
    exact first
  · next after found =>
    have second := drop_le (fun c => decide (c ≠ '\x7d')) after
    rw [found, List.length_cons, List.length_cons] at first
    split at h
    · next x after' found' =>
      simp only [Option.some.injEq, Prod.mk.injEq] at h
      rw [found', List.length_cons] at second
      rw [← h.2.2]
      omega
    · simp at h
  · simp at h

def resolve (environment : List Binding) : List Char → List Char
  | [] => []
  | '$' :: '\x7b' :: cs =>
    match h : reference? cs with
    | some (name, default, rest) =>
      have := reference?_shorter h
      let fallback := String.ofList (default.getD [])
      ((valueOf environment (String.ofList name)).getD fallback).toList ++ resolve environment rest
    | none => '$' :: resolve environment ('\x7b' :: cs)
  | c :: cs => c :: resolve environment cs
termination_by cs => cs.length
decreasing_by all_goals simp_all <;> omega

/-- The bindings with their references replaced. A reference sees the bindings before it, and behind
them the surrounding environment. -/
def resolveFrom (environment : List Binding) : List Binding → List Binding
  | [] => []
  | (name, value) :: rest =>
    let value := value.map fun v => String.ofList (resolve environment v.toList)
    (name, value) :: resolveFrom (environment ++ [(name, value)]) rest

def read (environment : List (String × String)) (text : String) : List Binding :=
  resolveFrom (environment.map fun b => (b.1, some b.2)) (bindings text)

end CatalogSteward.DotEnv
