import EditorLisp.Number.Nearest
import EditorLisp.Table
import EditorLisp.Value

/-!
# Timers

The table keeps what was registered; when to look at it is the caller's business.  Times
and durations are natural numbers of nanoseconds on a clock that the caller reads.
-/

namespace EditorLisp

/-- A registered timer. -/
structure Timer where
  id : Nat
  /-- The period of a repeating timer. -/
  period : Option Nat
  /-- The function to call. -/
  callback : Value
  /-- The arguments to call it with. -/
  args : List Value
  active : Bool
  /-- When it is due next. -/
  due : Nat
  /-- Whether it waits for idle time. -/
  idle : Bool
deriving Repr, Inhabited

/-- The timers of a session. -/
structure Timers where
  entries : Table Nat Timer := {}
  nextId : Nat := 1
deriving Repr, Inhabited

namespace Timers

/-- Register a timer.  A period of zero is no period. -/
def add (t : Timers) (now delay : Nat) (period : Option Nat) (callback : Value)
    (args : List Value) (idle : Bool) : Nat × Timers :=
  (t.nextId,
    { entries := t.entries.insert t.nextId
        { id := t.nextId, period := period.filter (· ≠ 0), callback, args, active := true
          due := now + delay, idle }
      nextId := t.nextId + 1 })

def get? (t : Timers) (id : Nat) : Option Timer := t.entries.get? id

def isActive (t : Timers) (id : Nat) : Bool := (t.get? id).any Timer.active

def cancel (t : Timers) (id : Nat) : Timers := { t with entries := t.entries.erase id }

/-- Stop a timer but keep its record. -/
def deactivate (t : Timers) (id : Nat) : Timers :=
  { t with entries := t.entries.modify id fun timer => { timer with active := false } }

def setPeriod (t : Timers) (id period now : Nat) : Timers :=
  { t with
    entries := t.entries.modify id fun timer =>
      { timer with period := some period, due := now + period } }

def activeIds (t : Timers) : List Nat := (t.entries.values.filter Timer.active).map Timer.id

/-- The active timers whose time has come, the earliest first and, among equals, in the
order of registration. -/
def due (t : Timers) (now : Nat) : List Nat :=
  ((t.entries.values.filter fun timer => timer.active && timer.due ≤ now).mergeSort
    fun a b => a.due ≤ b.due).map Timer.id

/-- Note that a timer has run: a repeating one is due again after its period, any other
becomes inactive. -/
def markFired (t : Timers) (id now : Nat) : Timers :=
  { t with
    entries := t.entries.modify id fun timer =>
      match timer.period with
      | some period => { timer with due := now + period }
      | none => { timer with active := false } }

/-- The time until the earliest active timer. -/
def nextDeadline? (t : Timers) (now : Nat) : Option Nat :=
  ((t.entries.values.filter Timer.active).map fun timer => timer.due - now).min?

end Timers

/-! ## Durations -/

/-- The nanoseconds of a second. -/
def second : Nat := 1000000000

/-- Whether a number of nanoseconds is a duration: its whole seconds fit a machine word. -/
def isDuration (n : Nat) : Bool := n / second < Number.twoTo 64

/-- Whether a clock can tell the time after a duration: its whole seconds fit a machine word
with a sign. -/
def isWithinReach (n : Nat) : Bool := n / second < Number.twoTo 63

/-- A finite number of seconds in nanoseconds, a half going to the even neighbour and a
negative number to zero. -/
def nanoseconds? (v : Value) : Option Nat :=
  let ofFloat (x : Float) : Option Nat :=
    match Number.decode x with
    | .finite b => some (if b.negative then 0 else b.inUnits 9)
    | _ => none
  match v with
  | .int n => ofFloat (Number.ofInt n.toInt)
  | .float x => ofFloat x.value
  | _ => none

end EditorLisp
