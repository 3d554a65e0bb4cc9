import CatalogSteward.Value

/-!
# Problems with settings

A value that cannot stand for a setting is a problem with a place, a code and a message. Problems are
listed with the value that was found, shortened when it is long.
-/

namespace CatalogSteward.Settings

inductive Defect where
  | notText
  | undecodableText
  | notInteger
  | unreadableInteger
  | integerTooLarge
  | fraction
  | notFinite
  | notBoolean
  | unreadableBoolean
  | notPath
  | notModel (name : String)
  | rejected (message : String)
  deriving DecidableEq, Repr

def Defect.code : Defect → String
  | notText => "string_type"
  | undecodableText => "string_unicode"
  | notInteger => "int_type"
  | unreadableInteger => "int_parsing"
  | integerTooLarge => "int_parsing_size"
  | fraction => "int_from_float"
  | notFinite => "finite_number"
  | notBoolean => "bool_type"
  | unreadableBoolean => "bool_parsing"
  | notPath => "path_type"
  | notModel _ => "model_type"
  | rejected _ => "value_error"

def Defect.message : Defect → String
  | notText => "Input should be a valid string"
  | undecodableText => "Input should be a valid string, unable to parse raw data as a unicode string"
  | notInteger => "Input should be a valid integer"
  | unreadableInteger => "Input should be a valid integer, unable to parse string as an integer"
  | integerTooLarge => "Unable to parse input string as an integer, exceeded maximum size"
  | fraction => "Input should be a valid integer, got a number with a fractional part"
  | notFinite => "Input should be a finite number"
  | notBoolean => "Input should be a valid boolean"
  | unreadableBoolean => "Input should be a valid boolean, unable to interpret input"
  | notPath => "Input is not a valid path for <class 'pathlib.Path'>"
  | notModel name => "Input should be a valid dictionary or instance of " ++ name
  | rejected message => "Value error, " ++ message

/-- A defect with the place of the value and the value itself. -/
structure Problem where
  place : List String
  defect : Defect
  input : Value
  deriving Repr

/-! ### Listing problems -/

mutual

/-- Whether all integers in a value are within the limit of what can be written. -/
def isShowable : Value → Bool
  | .int n => Decimal.isWritable n
  | .list items | .set items => areShowable items
  | .pair k v => isShowable k && isShowable v
  | .mapping entries => entriesAreShowable entries
  | _ => true

def areShowable : List Value → Bool
  | [] => true
  | v :: vs => isShowable v && areShowable vs

def entriesAreShowable : List (Value × Value) → Bool
  | [] => true
  | (k, v) :: es => isShowable k && isShowable v && entriesAreShowable es

end

def shown (v : Value) : String :=
  if isShowable v then v.literal else "<unprintable " ++ v.typeName ++ " object>"

/-- The longest prefix of at most `limit` bytes. -/
def takeBytes (limit : Nat) : List Char → List Char
  | [] => []
  | c :: cs => if c.utf8Size ≤ limit then c :: takeBytes (limit - c.utf8Size) cs else []

/-- A text of more than fifty bytes is cut to about the first and the last twenty-five. -/
def shorten (s : String) : String :=
  if s.utf8ByteSize ≤ 50 then s
  else
    let cs := s.toList
    String.ofList (takeBytes 25 cs ++ "...".toList ++ (takeBytes 24 cs.reverse).reverse)

def Problem.lines (p : Problem) : List String :=
  (if p.place.isEmpty then [] else [".".intercalate p.place])
    ++ ["  " ++ p.defect.message ++ " [type=" ++ p.defect.code ++ ", input_value=" ++ shorten (shown p.input)
      ++ ", input_type=" ++ p.input.typeName ++ "]"]

def problemLines (problems : List Problem) : List String :=
  let count := problems.length
  (Decimal.natText count ++ " validation error" ++ (if count = 1 then "" else "s") ++ " for StateConfig")
    :: problems.flatMap Problem.lines

end CatalogSteward.Settings
