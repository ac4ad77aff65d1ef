import EditorLisp.Event

/-!
# The command line

What the command line asks for, and what the program prints and answers in return.  Files
are loaded and expressions evaluated in the order in which they are given; afterwards
timers may be fired for some time.  A failing item does not keep the others from running,
but the exit status tells.

The command line is a function of its arguments, the files, the environment and the host; the clock
moves only when it is read and between two looks at the timers.
-/

namespace EditorLisp.CommandLine

/-- Something to run. -/
inductive Item where
  | load (path : String)
  | eval (source : String)
deriving Repr, DecidableEq

/-- What the command line asks for. -/
structure Options where
  /-- Directories to search before all others, in order. -/
  directories : List String := []
  /-- What to run, in order. -/
  items : List Item := []
  /-- How many nanoseconds to fire timers for. -/
  timers : Option Nat := none
deriving Repr, DecidableEq

/-- What is wrong with a command line. -/
inductive Fault where
  | missingOperand (option : String)
  | invalidDuration (operand : String)
  | unknownOption (option : String)
deriving Repr, DecidableEq

def Fault.message : Fault → String
  | .missingOperand option => option ++ " requires an argument"
  | .invalidDuration operand => "--run-timers: invalid duration \"" ++ operand ++ "\""
  | .unknownOption option => "unknown option: " ++ option

/-- A number of seconds that is neither negative nor infinite, in nanoseconds. -/
def duration? (operand : String) : Option Nat := do
  let seconds ← Number.floatLiteral? operand.toList
  if 0 ≤ seconds then nanoseconds? (.float seconds) else none

/-- Read the arguments in order, continuing from the options read so far. -/
def readFrom (o : Options) : List String → Except Fault Options
  | [] => .ok o
  | [arg] =>
    if arg ∈ ["-L", "--directory", "-l", "--load", "-e", "--eval", "--run-timers"] then
      .error (.missingOperand arg)
    else if arg.startsWith "-" && arg ≠ "-" then .error (.unknownOption arg)
    else .ok { o with items := o.items ++ [.load arg] }
  | arg :: operand :: rest =>
    if arg = "-L" ∨ arg = "--directory" then
      readFrom { o with directories := o.directories ++ [operand] } rest
    else if arg = "-l" ∨ arg = "--load" then
      readFrom { o with items := o.items ++ [.load operand] } rest
    else if arg = "-e" ∨ arg = "--eval" then
      readFrom { o with items := o.items ++ [.eval operand] } rest
    else if arg = "--run-timers" then
      match duration? operand with
      | some timers => readFrom { o with timers := some timers } rest
      | none => .error (.invalidDuration operand)
    else if arg.startsWith "-" && arg ≠ "-" then .error (.unknownOption arg)
    else readFrom { o with items := o.items ++ [.load arg] } (operand :: rest)
termination_by args => args.length

def Options.ofArguments (args : List String) : Except Fault Options := readFrom {} args

/-! ## Running -/

open Eval

/-- A run of the program so far. -/
structure Run where
  session : Session
  /-- What was printed. -/
  output : String := ""
  /-- Whether all items succeeded. -/
  succeeded : Bool := true
  /-- Whether the run came to a sudden end. -/
  crashed : Bool := false

/-- Run a step that answers whether it succeeded, unless the run has come to its end, and
print what it left to be printed.  A step that crashes prints nothing. -/
def Run.step (r : Run) (m : Eval Bool) : Run :=
  if r.crashed then r
  else
    match (do return (← m, ← takeOutput)).run r.session with
    | .ok (ok, printed) session =>
      { r with session, output := r.output ++ printed, succeeded := r.succeeded && ok }
    | .exit _ session => { r with session, succeeded := false }
    | .crashed session => { r with session, crashed := true }
    | .unfinished => { r with crashed := true }

/-- Run an item; the answer tells whether it succeeded.  The value of an expression is
printed after its output. -/
def Item.run : Item → Eval Bool
  | .load path => do
    match ← attempt (evalFile path) with
    | .ok (.ok _) => return true
    | _ => return false
  | .eval source => do
    match ← attempt (evalSource source) with
    | .ok (.ok value) =>
      modify fun s => { s with output := s.output ++ s.print value ++ "\n" }
      return true
    | _ => return false

/-- The nanoseconds between two looks at the timers: ten milliseconds, and a little for
waking up late. -/
def tick : Nat := 10060000

/-- Fire the timers that are due, and wait until the next look. -/
def look : Eval Bool := do
  let now ← Primitives.readClock
  let timers ← get (·.timers)
  let _ ← fireTimers (timers.due now)
  modify fun s => { s with clock := s.clock + tick }
  return true

/-- Look at the timers again and again until the deadline, or until none is left. -/
def Run.timersUntil (deadline : Nat) : Nat → Run → Run
  | 0, r => r
  | looks + 1, r =>
    if deadline ≤ r.session.clock + 1 || r.session.timers.activeIds.isEmpty then r
    else timersUntil deadline looks (r.step look)

/-- Fire timers for some nanoseconds. -/
def Run.timersFor (r : Run) (duration : Nat) : Run :=
  let r := r.step do
    Primitives.checkReach duration
    let _ ← Primitives.readClock
    return true
  if r.crashed then r else r.timersUntil (r.session.clock + duration) (duration / tick + 1)

def Options.run (o : Options) (r : Run) : Run :=
  let r := o.items.foldl (fun r item => r.step item.run) r
  match o.timers with
  | some duration => r.timersFor duration
  | none => r

def Run.status (r : Run) : UInt8 := if r.crashed then 101 else if r.succeeded then 0 else 1

/-- What a run of the program leaves behind. -/
structure Result where
  /-- The exit status. -/
  status : UInt8
  /-- What was printed. -/
  output : String
  /-- The files afterwards. -/
  files : Files

def run (args : List String) (files : Files) (environment : Environment) (host : Host) :
    Except Fault Result := do
  let o ← Options.ofArguments args
  let config := o.directories.foldr (fun dir c => c.prependLoadPath dir) (.ofEnvironment environment)
  let r := o.run { session := .new config files environment host }
  return ⟨r.status, r.output, r.session.files⟩

end EditorLisp.CommandLine
