import CatalogSteward.Yaml.Basic

/-!
# Timestamps

A timestamp is a date of four, one or two, and one or two digits, on its own or with a time of day, a
fraction of the second and the distance from universal time.
-/

namespace CatalogSteward.Yaml

/-- A time of day as written: the digits of the fraction and the offset in seconds may be missing. -/
structure Clock where
  hour : Nat
  minute : Nat
  second : Nat
  fraction : List Char
  offset : Option Int
  deriving DecidableEq, Repr

/-- A timestamp as written. It is full when month and day have two digits each. -/
structure Timestamp where
  year : Nat
  month : Nat
  day : Nat
  full : Bool
  clock : Option Clock
  deriving DecidableEq, Repr

namespace Timestamp

def number (ds : List Char) : Nat := ds.foldl (fun n d => n * 10 + (d.toNat - 0x30)) 0

/-- Takes between `least` and `most` digits. -/
def takeDigits (least most : Nat) (cs : List Char) : Option (List Char × List Char) :=
  let ds := (cs.take most).takeWhile Char.isDigit
  if least ≤ ds.length then some (ds, cs.drop ds.length) else none

def expect (c : Char) : List Char → Option (List Char)
  | d :: cs => if d = c then some cs else none
  | [] => none

/-- Takes what separates the date from the time: a letter, or blanks. -/
def takeGap (cs : List Char) : Option (List Char) :=
  match cs with
  | 'T' :: rest | 't' :: rest => some rest
  | c :: _ => if isSpaceOrTab c then some (cs.dropWhile isSpaceOrTab) else none
  | [] => none

/-- Takes a point with the digits after it, if there is one. -/
def takeFraction : List Char → List Char × List Char
  | '.' :: cs => (cs.takeWhile Char.isDigit, cs.dropWhile Char.isDigit)
  | cs => ([], cs)

/-- Reads what follows the time up to the end: the distance from universal time, or nothing. -/
def readOffset (cs : List Char) : Option (Option Int) :=
  if cs.isEmpty then some none
  else match cs.dropWhile isSpaceOrTab with
  | ['Z'] => some (some 0)
  | sign :: cs => do
    let (hours, cs) ← takeDigits 1 2 cs
    let (minutes, cs) ←
      match cs with
      | [] => some ([], [])
      | _ => (expect ':' cs).bind (takeDigits 2 2)
    let seconds : Int := number hours * 3600 + number minutes * 60
    if !cs.isEmpty then none
    else if sign = '+' then some (some seconds)
    else if sign = '-' then some (some (-seconds))
    else none
  | [] => none

def readClock (cs : List Char) : Option Clock := do
  let (hour, cs) ← takeDigits 1 2 cs
  let (minute, cs) ← (expect ':' cs).bind (takeDigits 2 2)
  let (second, cs) ← (expect ':' cs).bind (takeDigits 2 2)
  let (fraction, cs) := takeFraction cs
  return ⟨number hour, number minute, number second, fraction, ← readOffset cs⟩

def read? (cs : List Char) : Option Timestamp := do
  let (year, cs) ← takeDigits 4 4 cs
  let (month, cs) ← (expect '-' cs).bind (takeDigits 1 2)
  let (day, cs) ← (expect '-' cs).bind (takeDigits 1 2)
  let clock ← if cs.isEmpty then some none else (takeGap cs).bind fun cs => (readClock cs).map some
  return ⟨number year, number month, number day, month.length == 2 && day.length == 2, clock⟩

/-- The microseconds that the digits of a fraction stand for; those after the sixth do not count. -/
def microseconds (fraction : List Char) : Nat :=
  let ds := fraction.take 6
  number (ds ++ List.replicate (6 - ds.length) '0')

end Timestamp

end CatalogSteward.Yaml
