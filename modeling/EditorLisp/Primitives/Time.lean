import EditorLisp.Primitives.List

/-!
# Points in time

A point in time is a number of seconds since the start of 1970, or a list whose first two
numbers are its high and low part.  The calendar is the Gregorian one, in universal time.
-/

namespace EditorLisp.Primitives

open Eval Number

/-- The time at which sessions start, in seconds. -/
def sessionStart : Nat := 1700000000

/-- Read the clock, which moves it. -/
def readClock : Eval Nat := do
  modify fun s => { s with clock := s.clock + 1 }
  get (·.clock)

/-- The present time in nanoseconds. -/
def presentTime : Eval Nat := do return sessionStart * second + (← readClock)

/-- `(float-time &optional TIME)`. -/
def floatTime : Primitive := fun _ args => do
  atMost "float-time" args 1
  match arg args 0 with
  | .nil => return .float (ofInt ((← presentTime) / second : Nat))
  | .int n => return .float (ofInt n.toInt)
  | .float x => return .float x
  | .cons ref =>
    let parts ← properList (.cons ref)
    let field (i : Nat) : Float := ofInt (((parts[i]?).bind Value.int?).getD 0).toInt
    return .float (field 0 * 65536.0 + field 1 + field 2 / 1000000.0)
  | other => wrongType "time" other

/-- Whole seconds in high and low part. -/
def splitSeconds (seconds : Int) : List Value :=
  [.int (Int64.ofInt (seconds.fdiv 65536)), .int (Int64.ofInt (seconds.fmod 65536))]

def currentTime : Primitive := fun _ args => do
  exactly "current-time" args 0
  let now ← presentTime
  list (splitSeconds (now / second : Nat) ++ [.ofNat (now % second / 1000), .int 0])

/-- The whole seconds of a point in time; `nil` is now. -/
def secondsOf (v : Value) : Eval Int64 := do
  match v with
  | .nil => return Int64.ofNat ((← presentTime) / second)
  | .int n => return n
  | .float x => return saturate x.value.floor
  | .cons ref =>
    let parts ← properList (.cons ref)
    let field (i : Nat) : Int64 := ((parts[i]?).bind Value.int?).getD 0
    granted do Number.add? (← Number.mul? (field 0) 65536) (field 1)
  | other => wrongType "time" other

/-! ## The calendar -/

/-- A date. -/
structure Date where
  year : Int
  /-- The month, from one to twelve. -/
  month : Nat
  /-- The day of the month, from one on. -/
  day : Nat
deriving Repr, DecidableEq

/-- The year of an era in which a day of the era lies. -/
def yearOfEra? (dayOfEra : Int64) : Option Int64 := do
  let days ← sub? dayOfEra (dayOfEra / 1460)
  let days ← add? days (dayOfEra / 36524)
  let days ← sub? days (dayOfEra / 146096)
  return days / 365

/-- The day of an era with which a year of the era starts. -/
def yearStart? (yearOfEra : Int64) : Option Int64 := do
  let days ← mul? 365 yearOfEra
  let days ← add? days (yearOfEra / 4)
  sub? days (yearOfEra / 100)

/-- The month of a year in which a day of the year lies. -/
def monthOfYear? (dayOfYear : Int64) : Option Int64 := do
  let days ← mul? 5 dayOfYear
  let days ← add? days 2
  return days / 153

/-- The day of a year with which a month of the year starts. -/
def monthStart? (monthOfYear : Int64) : Option Int64 := do
  let days ← mul? 153 monthOfYear
  let days ← add? days 2
  return days / 5

/-- The date that is a number of days after the start of 1970, if all numbers on the way to it
fit.  Years are counted from March, so that a leap day comes last, in eras of four hundred
years. -/
def civil? (days : Int64) : Option Date := do
  let shifted ← add? days 719468
  let era := Int64.ofInt (shifted.toInt / 146097)
  let dayOfEra := Int64.ofInt (shifted.toInt % 146097)
  let yearOfEra ← yearOfEra? dayOfEra
  let dayOfYear ← sub? dayOfEra (← yearStart? yearOfEra)
  let fromMarch ← monthOfYear? dayOfYear
  let day ← add? (← sub? dayOfYear (← monthStart? fromMarch)) 1
  let month ← if fromMarch < 10 then add? fromMarch 3 else sub? fromMarch 9
  let year ← add? yearOfEra (← mul? era 400)
  let year ← add? year (if month ≤ 2 then 1 else 0)
  return ⟨year.toInt, month.toInt.toNat, day.toInt.toNat⟩

/-- The days of the week from that of the start of 1970 on. -/
def dayNames : List String := ["Thu", "Fri", "Sat", "Sun", "Mon", "Tue", "Wed"]

def monthNames : List String :=
  ["Jan", "Feb", "Mar", "Apr", "May", "Jun", "Jul", "Aug", "Sep", "Oct", "Nov", "Dec"]

/-- A number of at least two places, filled with a character. -/
def twoPlaces (fill : Char) (n : Nat) : String := if n < 10 then fill.toString ++ toString n else toString n

/-- The number of the day, after the start of 1970, in which a point in time lies. -/
def dayOf (seconds : Int64) : Int64 := Int64.ofInt (seconds.toInt / 86400)

def dateText? (seconds : Int64) : Option String := do
  let rest := (seconds.toInt % 86400).toNat
  let date ← civil? (dayOf seconds)
  return dayNames.getD ((dayOf seconds).toInt % 7).toNat "" ++ " " ++
    monthNames.getD (date.month - 1) "" ++ " " ++ twoPlaces ' ' date.day ++ " " ++
    twoPlaces '0' (rest / 3600) ++ ":" ++ twoPlaces '0' (rest % 3600 / 60) ++ ":" ++
    twoPlaces '0' (rest % 60) ++ " " ++ toString date.year

/-- `(current-time-string &optional TIME)`. -/
def currentTimeString : Primitive := fun _ args => do
  atMost "current-time-string" args 2
  let seconds ← secondsOf (arg args 0)
  text (← granted (dateText? seconds))

def timeConvert : Primitive := fun _ args => do
  between "time-convert" args 1 2
  let seconds ← secondsOf (arg args 0)
  if (arg args 1).isNamed "integer" then return .int seconds
  else list (splitSeconds seconds.toInt ++ [.int 0, .int 0])

def timeEqualP : Primitive := binary "time-equal-p" fun a b => do
  let x ← secondsOf a
  let y ← secondsOf b
  bool (x == y)

def times : List (String × Primitive) :=
  [("float-time", floatTime), ("current-time", currentTime),
   ("current-time-string", currentTimeString), ("time-convert", timeConvert),
   ("time-equal-p", timeEqualP)]

end EditorLisp.Primitives
