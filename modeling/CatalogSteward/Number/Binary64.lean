import CatalogSteward.Number.Decimal

/-!
# Binary floating point numbers

A finite number is `m · 2 ^ e` with `m < 2 ^ 53`; among the pairs that denote one number the one with
the greatest `m` is kept, down to the exponent -1074. All arithmetic is exact and rounded once, to the
nearest number, a tie to the even one.
-/

namespace CatalogSteward

inductive Binary64 where
  | nan
  | infinity (negative : Bool)
  | finite (negative : Bool) (significand : Nat) (exponent : Int)
  deriving DecidableEq, Repr, Inhabited

namespace Binary64

def powerOfTwo (n : Nat) : Nat := Nat.pow 2 n

def minExponent : Int := -1074
def maxExponent : Int := 971

def zero (negative : Bool) : Binary64 := .finite negative 0 minExponent

/-- The quotient of `num` by `den · 2 ^ e` as a pair of natural numbers to divide. -/
def scaled (num den : Nat) (e : Int) : Nat × Nat :=
  if 0 ≤ e then (num, den * powerOfTwo e.toNat) else (num * powerOfTwo (-e).toNat, den)

/-- The quotient rounded to the nearest natural number, a tie to the even one. -/
def roundedQuotient (num den : Nat) : Nat :=
  let q := num / den
  let r := num % den
  if 2 * r < den ∨ (2 * r = den ∧ q % 2 = 0) then q else q + 1

/-- The number nearest to `num / den`, with the given sign. -/
def ofRatio (negative : Bool) (num den : Nat) : Binary64 :=
  if num = 0 then zero negative
  else
    let guess : Int := num.log2 - den.log2 - 52
    let (a, b) := scaled num den guess
    let e := max (if a / b < powerOfTwo 52 then guess - 1 else guess) minExponent
    let (a, b) := scaled num den e
    let m := roundedQuotient a b
    let (m, e) := if m = powerOfTwo 53 then (powerOfTwo 52, e + 1) else (m, e)
    if e > maxExponent then .infinity negative else .finite negative m e

/-- The number nearest to `digits · 10 ^ exponent`. -/
def ofDecimal (negative : Bool) (digits : Nat) (exponent : Int) : Binary64 :=
  let magnitude : Int := (Decimal.natChars digits).length + exponent
  if digits = 0 ∨ magnitude < -330 then zero negative
  else if magnitude > 330 then .infinity negative
  else if 0 ≤ exponent then ofRatio negative (digits * Decimal.powerOfTen exponent.toNat) 1
  else ofRatio negative digits (Decimal.powerOfTen (-exponent).toNat)

def ofInt (n : Int) : Binary64 := ofRatio (n < 0) n.natAbs 1

/-- The magnitude `m · 2 ^ e` as a quotient. -/
def ratio (m : Nat) (e : Int) : Nat × Nat :=
  if 0 ≤ e then (m * powerOfTwo e.toNat, 1) else (m, powerOfTwo (-e).toNat)

def toInt? : Binary64 → Option Int
  | .finite negative m e =>
    let (num, den) := ratio m e
    if num % den = 0 then some (if negative then -((num / den : Nat) : Int) else (num / den : Nat)) else none
  | _ => none

/-- A finite number as an integer multiple of `2 ^ e`, where `e` is at most its exponent. -/
def multipleOf (negative : Bool) (m : Nat) (e target : Int) : Int :=
  let k : Int := (m * powerOfTwo (e - target).toNat : Nat)
  if negative then -k else k

def add : Binary64 → Binary64 → Binary64
  | .nan, _ => .nan
  | _, .nan => .nan
  | .infinity a, .infinity b => if a = b then .infinity a else .nan
  | .infinity a, _ => .infinity a
  | _, .infinity b => .infinity b
  | .finite a m e, .finite b n f =>
    let g := min e f
    let sum := multipleOf a m e g + multipleOf b n f g
    if sum = 0 then zero (a && b)
    else
      let (num, den) := ratio sum.natAbs g
      ofRatio (sum < 0) num den

def mul : Binary64 → Binary64 → Binary64
  | .nan, _ => .nan
  | _, .nan => .nan
  | .infinity a, .infinity b => .infinity (a != b)
  | .infinity a, .finite b n _ => if n = 0 then .nan else .infinity (a != b)
  | .finite a m _, .infinity b => if m = 0 then .nan else .infinity (a != b)
  | .finite a m e, .finite b n f =>
    let (num, den) := ratio (m * n) (e + f)
    ofRatio (a != b) num den

def neg : Binary64 → Binary64
  | .nan => .nan
  | .infinity a => .infinity (!a)
  | .finite a m e => .finite (!a) m e

/-! ### Shortest text

The digits of a number are the fewest that read back as the number, and among those the nearest to it.
All numbers that round to `m · 2 ^ e` form an interval, whose ends belong to it if `m` is even. On each
decimal grid only the two neighbours of the number need to be tried. -/

/-- Whether `num / den` rounds to `m · 2 ^ e`. -/
def roundsTo (m : Nat) (e : Int) (num den : Nat) : Bool :=
  let (lowNum, lowDen) :=
    if m = powerOfTwo 52 ∧ e > minExponent then ratio (4 * m - 1) (e - 2) else ratio (2 * m - 1) (e - 1)
  let (highNum, highDen) := ratio (2 * m + 1) (e - 1)
  let low := lowNum * den
  let high := highNum * den
  if m % 2 = 0 then low ≤ num * lowDen && num * highDen ≤ high
  else low < num * lowDen && num * highDen < high

/-- The number of digits before the decimal point of `num / den`; zero and less if the number is below
one. -/
def pointPosition (num den : Nat) : Int :=
  if den ≤ num then (Decimal.natChars (num / den)).length
  else
    let places := (Decimal.natChars (den / num)).length
    if num * Decimal.powerOfTen (places - 1) ≥ den then 2 - (places : Int) else 1 - (places : Int)

/-- The neighbours of `num / den` on the grid of `10 ^ k` that round to `m · 2 ^ e`, the nearer one
first, a tie to the even one. -/
def gridPoint? (m : Nat) (e : Int) (num den : Nat) (k : Int) : Option Nat :=
  let unit := Decimal.powerOfTen k.natAbs
  let (a, b) := if 0 ≤ k then (num, den * unit) else (num * unit, den)
  let below := a / b
  let fits (d : Nat) : Bool :=
    if 0 ≤ k then roundsTo m e (d * unit) 1 else roundsTo m e d unit
  let nearest := roundedQuotient a b
  let other := if nearest = below then below + 1 else below
  if fits nearest then some nearest else if fits other then some other else none

/-- The shortest digits of `m · 2 ^ e` and the position of the decimal point after the first of them. -/
def shortest (m : Nat) (e : Int) : Nat × Int :=
  let (num, den) := ratio m e
  let point := pointPosition num den
  let found := (List.range 17).findSome? fun n =>
    let k : Int := point - ((n + 1 : Nat) : Int)
    (gridPoint? m e num den k).map fun d => (d, k)
  match found with
  | some (d, k) => (d, k)
  | none => (m, e)

def dropZeros (cs : List Char) : List Char := (cs.reverse.dropWhile (· = '0')).reverse

/-- A magnitude with digits `ds` and the decimal point after `point` of them: positional from 0.0001
up to sixteen digits before the point, and with an exponent of at least two digits beyond. -/
def layout (ds : List Char) (point : Int) : List Char :=
  if -4 < point ∧ point ≤ 16 then
    if point ≤ 0 then '0' :: '.' :: (List.replicate (-point).toNat '0' ++ ds)
    else
      let whole := ds.take point.toNat
      let whole := whole ++ List.replicate (point.toNat - whole.length) '0'
      let fraction := ds.drop point.toNat
      whole ++ '.' :: (if fraction.isEmpty then ['0'] else fraction)
  else
    let exponent := point - 1
    let digits := Decimal.natChars exponent.natAbs
    let digits := if digits.length < 2 then '0' :: digits else digits
    ds.take 1 ++ (if ds.length > 1 then '.' :: ds.drop 1 else [])
      ++ 'e' :: (if exponent < 0 then '-' else '+') :: digits

def chars : Binary64 → List Char
  | .nan => ['n', 'a', 'n']
  | .infinity negative => (if negative then ['-'] else []) ++ ['i', 'n', 'f']
  | .finite negative m e =>
    let sign := if negative then ['-'] else []
    if m = 0 then sign ++ ['0', '.', '0']
    else
      let (d, k) := shortest m e
      let digits := Decimal.natChars d
      sign ++ layout (dropZeros digits) (k + digits.length)

def text (x : Binary64) : String := String.ofList (chars x)

/-! ### Reading -/

/-- The digits at the start of a text, and what follows them. -/
def spanDigits (cs : List Char) : List Char × List Char :=
  (cs.takeWhile Text.isDecimal, cs.dropWhile Text.isDecimal)

def digitsValue (cs : List Char) : Nat :=
  cs.foldl (fun n c => n * 10 + (Text.decimalValue? c).getD 0) 0

/-- An exponent mark with its number, or nothing at the end of the text. -/
def exponent? : List Char → Option Int
  | [] => some 0
  | c :: cs =>
    if c = 'e' ∨ c = 'E' then
      let (negative, rest) := Decimal.splitSign cs
      let (ds, rest) := spanDigits rest
      if ds.isEmpty ∨ !rest.isEmpty then none
      else some (if negative then -(digitsValue ds : Int) else digitsValue ds)
    else none

/-- Reads a number after its sign: digits with a decimal point and an exponent, an infinity or `nan`,
in either case. -/
def magnitude? (negative : Bool) (cs : List Char) : Option Binary64 :=
  let word := String.ofList (cs.map Char.toLower)
  if word = "inf" ∨ word = "infinity" then some (.infinity negative)
  else if word = "nan" then some .nan
  else
    let (whole, rest) := spanDigits cs
    let (fraction, rest) := match rest with
      | '.' :: rest => spanDigits rest
      | rest => ([], rest)
    if whole.isEmpty ∧ fraction.isEmpty then none
    else (exponent? rest).map fun e =>
      ofDecimal negative (digitsValue (whole ++ fraction)) (e - fraction.length)

def read? (s : String) : Option Binary64 :=
  let (negative, cs) := Decimal.splitSign (Text.trimBy Text.isBlank s.toList)
  magnitude? negative cs

end Binary64

end CatalogSteward
