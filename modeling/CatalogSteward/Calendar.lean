import CatalogSteward.Number.Decimal

/-!
# Dates and moments

Calendar dates of the years 1 to 9999 and moments of such a day, with the distance from universal time
where it is known. They are written in two ways: in the ISO form, and in the constructor form that
messages use.
-/

namespace CatalogSteward

open Decimal

structure Date where
  year : Nat
  month : Nat
  day : Nat
  deriving DecidableEq, Repr, Inhabited

/-- A moment of a day. The offset is the number of seconds by which the clock is ahead of universal
time. -/
structure Moment where
  date : Date
  hour : Nat
  minute : Nat
  second : Nat
  microsecond : Nat
  offset : Option Int
  deriving DecidableEq, Repr, Inhabited

namespace Calendar

inductive Problem where
  | year (value : Nat)
  | month
  | day
  | hour
  | minute
  | second
  | offset (seconds : Int)
  deriving DecidableEq, Repr

def secondsPerDay : Int := 86400

/-- A span of time in its constructor form: whole days and a nonnegative rest of seconds. -/
def spanText (seconds : Int) : String :=
  let days := seconds.fdiv secondsPerDay
  let rest := seconds.fmod secondsPerDay
  let parts :=
    (if days = 0 then [] else ["days=" ++ text days]) ++ (if rest = 0 then [] else ["seconds=" ++ text rest])
  "datetime.timedelta(" ++ (if parts.isEmpty then "0" else ", ".intercalate parts) ++ ")"

def Problem.message : Problem → String
  | year value => "year " ++ natText value ++ " is out of range"
  | month => "month must be in 1..12"
  | day => "day is out of range for month"
  | hour => "hour must be in 0..23"
  | minute => "minute must be in 0..59"
  | second => "second must be in 0..59"
  | offset seconds =>
    "offset must be a timedelta strictly between -timedelta(hours=24) and timedelta(hours=24), not "
      ++ spanText seconds ++ "."

def isLeap (year : Nat) : Bool := year % 4 == 0 && (year % 100 != 0 || year % 400 == 0)

def daysInMonth (year month : Nat) : Nat :=
  if month = 2 then if isLeap year then 29 else 28
  else if month = 4 ∨ month = 6 ∨ month = 9 ∨ month = 11 then 30
  else 31

def date (year month day : Nat) : Except Problem Date :=
  if year = 0 ∨ 9999 < year then .error (.year year)
  else if month = 0 ∨ 12 < month then .error .month
  else if day = 0 ∨ daysInMonth year month < day then .error .day
  else .ok ⟨year, month, day⟩

/-- The offset, which must stay below one day in either direction. -/
def checkOffset : Option Int → Except Problem (Option Int)
  | none => .ok none
  | some seconds =>
    if -secondsPerDay < seconds ∧ seconds < secondsPerDay then .ok (some seconds)
    else .error (.offset seconds)

def moment (year month day hour minute second microsecond : Nat) (offset : Option Int) :
    Except Problem Moment := do
  let offset ← checkOffset offset
  let date ← date year month day
  if 23 < hour then .error .hour
  else if 59 < minute then .error .minute
  else if 59 < second then .error .second
  else .ok ⟨date, hour, minute, second, microsecond, offset⟩

def padded (width n : Nat) : String :=
  let digits := natChars n
  String.ofList (List.replicate (width - digits.length) '0' ++ digits)

/-- The days from the first of January of the year 1. -/
def dayNumber (d : Date) : Int :=
  let years := d.year - 1
  let months := (List.range (d.month - 1)).foldl (fun days m => days + daysInMonth d.year (m + 1)) 0
  (years * 365 + years / 4 - years / 100 + years / 400 + months + d.day : Nat)

end Calendar

namespace Date

open Calendar

def isoText (d : Date) : String :=
  padded 4 d.year ++ "-" ++ padded 2 d.month ++ "-" ++ padded 2 d.day

def constructorText (d : Date) : String :=
  "datetime.date(" ++ natText d.year ++ ", " ++ natText d.month ++ ", " ++ natText d.day ++ ")"

end Date

namespace Moment

open Calendar

/-- An offset in the ISO form; seconds are written only when there are any. -/
def offsetText (seconds : Int) : String :=
  let n := seconds.natAbs
  (if seconds < 0 then "-" else "+") ++ padded 2 (n / 3600) ++ ":" ++ padded 2 (n / 60 % 60)
    ++ (if n % 60 = 0 then "" else ":" ++ padded 2 (n % 60))

def isoText (m : Moment) : String :=
  m.date.isoText ++ "T" ++ padded 2 m.hour ++ ":" ++ padded 2 m.minute ++ ":" ++ padded 2 m.second
    ++ (if m.microsecond = 0 then "" else "." ++ padded 6 m.microsecond)
    ++ (match m.offset with
      | some seconds => offsetText seconds
      | none => "")

def zoneText (seconds : Int) : String :=
  if seconds = 0 then "datetime.timezone.utc" else "datetime.timezone(" ++ spanText seconds ++ ")"

/-- The constructor form. Seconds and microseconds are left out from the end while they are zero. -/
def constructorText (m : Moment) : String :=
  let small :=
    if m.microsecond ≠ 0 then [natText m.second, natText m.microsecond]
    else if m.second ≠ 0 then [natText m.second]
    else []
  let zone := match m.offset with
    | some seconds => ["tzinfo=" ++ zoneText seconds]
    | none => []
  let parts := [natText m.date.year, natText m.date.month, natText m.date.day, natText m.hour,
    natText m.minute] ++ small ++ zone
  "datetime.datetime(" ++ ", ".intercalate parts ++ ")"

/-- Microseconds from the start of the calendar, by the moment's own clock. -/
def clock (m : Moment) : Int :=
  (dayNumber m.date * secondsPerDay + (m.hour * 3600 + m.minute * 60 + m.second : Nat)) * 1000000
    + m.microsecond

/-- Whether two moments are the same instant. A moment with an offset and one without never are. -/
def sameInstant (m n : Moment) : Bool :=
  match m.offset, n.offset with
  | none, none => m.clock == n.clock
  | some a, some b => m.clock - a * 1000000 == n.clock - b * 1000000
  | _, _ => false

/-! ### Reading the ISO form -/

/-- Takes a number of exactly `width` digits from the front of a text. -/
def takeNumber (width : Nat) (cs : List Char) : Option (Nat × List Char) :=
  let ds := cs.take width
  if ds.length = width ∧ ds.all (fun c => '0' ≤ c ∧ c ≤ '9') then
    some (ds.foldl (fun n c => n * 10 + (c.toNat - 0x30)) 0, cs.drop width)
  else none

/-- A further two-digit part after a colon, zero when the text does not go on with a colon. -/
def takePart : List Char → Option (Nat × List Char)
  | ':' :: cs => takeNumber 2 cs
  | cs => some (0, cs)

def takeFraction : List Char → Option (Nat × List Char)
  | '.' :: cs =>
    let ds := cs.takeWhile fun c => '0' ≤ c ∧ c ≤ '9'
    if ds.isEmpty then none
    else (takeNumber 6 ((ds ++ List.replicate 6 '0').take 6)).map fun r => (r.1, cs.drop ds.length)
  | cs => some (0, cs)

def takeOffset : List Char → Option (Option Int)
  | [] => some none
  | ['Z'] => some (some 0)
  | c :: cs =>
    if c = '+' ∨ c = '-' then do
      let (hours, cs) ← takeNumber 2 cs
      let (minutes, cs) ← takePart cs
      let (seconds, cs) ← takePart cs
      if cs.isEmpty then
        let total : Int := (hours * 3600 + minutes * 60 + seconds : Nat)
        some (some (if c = '-' then -total else total))
      else none
    else none

/-- Reads a date, alone or with a time of day after it. -/
def ofIso? (s : String) : Option Moment := do
  let (year, cs) ← takeNumber 4 s.toList
  let (month, cs) ← match cs with
    | '-' :: cs => takeNumber 2 cs
    | _ => none
  let (day, cs) ← match cs with
    | '-' :: cs => takeNumber 2 cs
    | _ => none
  let build (h m s us : Nat) (offset : Option Int) :=
    (Calendar.moment year month day h m s us offset).toOption
  match cs with
  | [] => build 0 0 0 0 none
  | _ :: cs => do
    let (hour, cs) ← takeNumber 2 cs
    let (minute, cs) ← takePart cs
    let (second, cs) ← takePart cs
    let (microsecond, cs) ← takeFraction cs
    build hour minute second microsecond (← takeOffset cs)

end Moment

end CatalogSteward
