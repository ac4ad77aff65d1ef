import EditorLisp.Number.Literal
import EditorLisp.Primitives.Time

/-!
# Timers as objects

Primitives that register timers.  A delay is a number of seconds, or a text such as `now`
or an amount with a unit.
-/

namespace EditorLisp.Primitives

open Eval

def unitSeconds? (unit : String) : Option Float :=
  if unit ∈ ["", "s", "sec", "secs", "second", "seconds"] then some 1.0
  else if unit ∈ ["min", "mins", "minute", "minutes"] then some 60.0
  else if unit ∈ ["hour", "hours"] then some 3600.0
  else none

def relativeTime? (spec : String) : Option Float := do
  let cs := Text.trim spec.toList
  if String.ofList cs = "now" then some 0.0
  else
    let inAmount (c : Char) : Bool := c.isDigit || c == '.'
    let amount ← Number.floatLiteral? (cs.takeWhile inAmount)
    let scale ← unitSeconds? (String.ofList (Text.trim (cs.dropWhile inAmount)))
    some (amount * scale)

/-- A number of nanoseconds that has to be a duration. -/
def duration (n : Nat) : Eval Nat := if isDuration n then pure n else crash

/-- The duration of a number of seconds, or a complaint that it is no finite number. -/
def durationOf (v : Value) : Eval Nat := do
  match nanoseconds? v with
  | some n => duration n
  | none => wrongType "numberp" v

/-- A time after now that clocks have to be able to tell. -/
def checkReach (n : Nat) : Eval Unit := if isWithinReach n then pure () else crash

/-- The delay that a value stands for, in nanoseconds. -/
def delayOf (v : Value) : Eval Nat := do
  match v with
  | .nil | .t => return 0
  | .str _ spec =>
    match relativeTime? spec with
    | some seconds => duration (← granted (nanoseconds? (.float seconds)))
    | none => error ("Invalid time specification: " ++ spec)
  | other => durationOf other

/-- An optional period in nanoseconds. -/
def periodOf (v : Option Value) : Eval (Option Nat) := do
  match v with
  | none => return none
  | some v => return some (← durationOf v)

/-- Register a timer.  An idle timer that repeats has its delay for a period. -/
def schedule (name : String) (idle : Bool) : Primitive := fun _ args => do
  atLeast name args 3
  let delay ← delayOf (arg args 0)
  let period ←
    if idle then pure (if flag args 1 then some delay else none) else periodOf (given? args 1)
  checkReach delay
  let now ← readClock
  let timers ← get (·.timers)
  let (id, timers) := timers.add now delay period (arg args 2) (args.drop 3) idle
  modify fun s => { s with timers }
  return .timer id

def requireTimer (v : Value) : Eval Nat :=
  match v with
  | .timer id => pure id
  | other => wrongType "timerp" other

def cancelTimer : Primitive := unary "cancel-timer" fun v => do
  let id ← requireTimer v
  modify fun s => { s with timers := s.timers.cancel id }
  return .nil

def isTimer : Value → Bool
  | .timer _ => true
  | _ => false

def timerList : Primitive := fun _ args => do
  exactly "timer-list" args 0
  list ((← session).timers.activeIds.map Value.timer)

/-- Change the period of a timer and start it over; one that is gone is passed over. -/
def setTimerPeriod (id period : Nat) : Eval Unit := do
  let now ← readClock
  if ((← session).timers.get? id).isSome then checkReach period
  modify fun s => { s with timers := s.timers.setPeriod id period now }

/-- `(timer-set-time TIMER TIME &optional REPEAT)`. -/
def timerSetTime : Primitive := fun _ args => do
  between "timer-set-time" args 2 3
  let id ← requireTimer (arg args 0)
  let period ← periodOf (given? args 2)
  let delay ← delayOf (arg args 1)
  setTimerPeriod id (period.getD delay)
  return arg args 0

def timers : List (String × Primitive) :=
  [("run-at-time", schedule "run-at-time" false), ("run-with-timer", schedule "run-at-time" false),
   ("run-with-idle-timer", schedule "run-with-idle-timer" true),
   ("cancel-timer", cancelTimer), ("timerp", predicate "timerp" isTimer),
   ("timer-list", timerList), ("timer-set-time", timerSetTime)]

end EditorLisp.Primitives
