/-!
# Arguments

The arguments of a command are options and operands. An option has a long name and perhaps a letter; some
options take a value. The value of a long option follows an equals sign or is the next argument, and that
of a letter is the rest of its argument or the next one. Letters that take no value can share an argument.
Two hyphens end the options.
-/

namespace CatalogSteward.CommandLine

inductive Switch where
  | help
  | version
  | config
  | schema
  | extensionVersion
  | latest
  | yes
  | force
  | verbose
  | quiet
  | noColor
  deriving DecidableEq, Repr

namespace Switch

def name : Switch → String
  | help => "--help"
  | version => "--version"
  | config => "--config"
  | schema => "--schema"
  | extensionVersion => "--ext-version"
  | latest => "--latest"
  | yes => "--yes"
  | force => "--force"
  | verbose => "--verbose"
  | quiet => "--quiet"
  | noColor => "--no-color"

def letter? : Switch → Option Char
  | version => some 'V'
  | config => some 'c'
  | schema => some 's'
  | yes => some 'y'
  | force => some 'f'
  | verbose => some 'v'
  | quiet => some 'q'
  | help | extensionVersion | latest | noColor => none

def takesValue : Switch → Bool
  | config | schema | extensionVersion => true
  | _ => false

end Switch

/-- What one argument gives: options, each with its value if it takes one, and perhaps an option whose
value is the next argument. -/
structure Reading where
  given : List (Switch × String)
  awaiting : Option Switch
  deriving DecidableEq, Repr

/-- Reads an argument as the long name of an option, with the value after the equals sign if there is
one. -/
def readLong (accepted : List Switch) (arg : List Char) : Option Reading := do
  let name := String.ofList (arg.takeWhile (· ≠ '='))
  let s ← accepted.find? fun s => s.name == name
  match s.takesValue, arg.dropWhile (· ≠ '=') with
  | false, [] => some ⟨[(s, "")], none⟩
  | false, _ :: _ => none
  | true, [] => some ⟨[], some s⟩
  | true, _ :: value => some ⟨[(s, String.ofList value)], none⟩

def readLetters (accepted : List Switch) : List Char → Option Reading
  | [] => some ⟨[], none⟩
  | c :: cs => do
    let s ← accepted.find? fun s => s.letter? == some c
    if s.takesValue then
      if cs.isEmpty then some ⟨[], some s⟩ else some ⟨[(s, String.ofList cs)], none⟩
    else
      let r ← readLetters accepted cs
      some { r with given := (s, "") :: r.given }

/-- Whether an argument is read as an option: a hyphen with something after it. -/
def looksLikeOption (arg : List Char) : Bool := arg.head? == some '-' && 1 < arg.length

/-- Reads an argument that looks like an option: a long name has two hyphens, letters have one. -/
def readOption (accepted : List Switch) : List Char → Option Reading
  | '-' :: '-' :: cs => readLong accepted ('-' :: '-' :: cs)
  | _ :: letters => readLetters accepted letters
  | [] => none

structure Arguments where
  given : List (Switch × String)
  operands : List String
  deriving DecidableEq, Repr

namespace Arguments

/-- Takes arguments apart. Options may follow operands, unless the first operand is to end them. -/
def read (accepted : List Switch) (mixed : Bool) : List String → Option Arguments
  | [] => some ⟨[], []⟩
  | arg :: args =>
    if arg = "--" then some ⟨[], args⟩
    else if !looksLikeOption arg.toList then
      if mixed then (read accepted mixed args).map fun a => { a with operands := arg :: a.operands }
      else some ⟨[], arg :: args⟩
    else
      match readOption accepted arg.toList with
      | none => none
      | some ⟨given, none⟩ =>
        (read accepted mixed args).map fun a => { a with given := given ++ a.given }
      | some ⟨given, some s⟩ =>
        match args with
        | [] => none
        | value :: args =>
          (read accepted mixed args).map fun a => { a with given := given ++ (s, value) :: a.given }

def has (a : Arguments) (s : Switch) : Bool := a.given.any fun g => g.1 == s

def count (a : Arguments) (s : Switch) : Nat := a.given.countP fun g => g.1 == s

/-- The value of an option; the last one counts. -/
def value? (a : Arguments) (s : Switch) : Option String :=
  (a.given.reverse.find? fun g => g.1 == s).map (·.2)

end Arguments

end CatalogSteward.CommandLine
