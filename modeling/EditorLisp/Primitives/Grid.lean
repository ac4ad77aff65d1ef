import EditorLisp.Primitives.File
import EditorLisp.Primitives.Timer

/-!
# The game grid from within programs

Primitives that draw on the grid, drive it by a timer, and record scores.
-/

namespace EditorLisp.Primitives

open Eval

/-- The period of a game in seconds if none makes sense. -/
def defaultPeriod : Float := 0.1

def terminalDisplays : List String := ["t", "emacs-tty", "color-tty"]

/-- The period of a game, in nanoseconds. -/
def gamePeriod (v : Value) : Eval Nat := do
  let seconds := (← number v).value
  duration (← granted (nanoseconds? (.float (if seconds > 0.0 then seconds else defaultPeriod))))

def modifyGrid (f : Grid → Grid) : Eval Unit := modify fun s => { s with grid := f s.grid }

/-- `(gamegrid-init OPTIONS)`. -/
def gridInit : Primitive := unary "gamegrid-init" fun v => do
  modifyGrid fun g => { g with display := v }
  return v

/-- `(gamegrid-init-buffer WIDTH HEIGHT BLANK)`. -/
def gridInitBuffer : Primitive := fun _ args => do
  exactly "gamegrid-init-buffer" args 3
  let width ← integer (arg args 0)
  let height ← integer (arg args 1)
  modifyGrid (·.reset width.toInt.toNat height.toInt.toNat (arg args 2))
  return arg args 2

/-- `(gamegrid-set-cell X Y VALUE)`. -/
def gridSetCell : Primitive := fun _ args => do
  exactly "gamegrid-set-cell" args 3
  let x ← integer (arg args 0)
  let y ← integer (arg args 1)
  modifyGrid (·.setCell x.toInt y.toInt (arg args 2))
  return arg args 2

/-- `(gamegrid-get-cell X Y)`. -/
def gridGetCell : Primitive := binary "gamegrid-get-cell" fun x y => do
  let x ← integer x
  let y ← integer y
  return (← session).grid.cell x.toInt y.toInt

/-- Cancel the timer of the game. -/
def dropGameTimer : Eval Unit := modify fun s =>
  match s.grid.timer with
  | some id => { s with timers := s.timers.cancel id, grid := { s.grid with timer := none } }
  | none => s

/-- `(gamegrid-start-timer PERIOD FUNCTION)`. -/
def gridStartTimer : Primitive := binary "gamegrid-start-timer" fun period callback => do
  let period ← gamePeriod period
  dropGameTimer
  checkReach period
  let now ← readClock
  modify fun s =>
    let (id, timers) := s.timers.add now period (some period) callback [] false
    { s with timers, grid := { s.grid with timer := some id } }
  return callback

/-- A number of nanoseconds in seconds. -/
def secondsFloat (n : Nat) : Float :=
  Number.ofInt (n / second : Nat) + Number.ofInt (n % second : Nat) / 1000000000.0

/-- `(gamegrid-set-timer PERIOD)`. -/
def gridSetTimer : Primitive := unary "gamegrid-set-timer" fun v => do
  let period ← gamePeriod v
  match (← session).grid.timer with
  | some id => setTimerPeriod id period
  | none => pure ()
  return .float (secondsFloat period)

/-- `(gamegrid-kill-timer)`. -/
def gridKillTimer : Primitive := fun _ args => do
  exactly "gamegrid-kill-timer" args 0
  dropGameTimer
  return .nil

/-- `(gamegrid-add-score FILE SCORE)`: add a line with the time and the score to a file.
A file that cannot be written is passed over. -/
def gridAddScore : Primitive := fun _ args => do
  between "gamegrid-add-score" args 2 3
  let file ← stringOrName (arg args 0)
  let score ← integer (arg args 1)
  let stamp := (← presentTime) / second
  let s ← session
  let dir := (s.globals.get? "gamegrid-user-score-file-directory").bind Value.text?
  let line := toString stamp ++ "\t" ++ toString score.toInt ++ "\n"
  match s.files.write? (s.expandFileName file dir) line true with
  | some files => modify fun s => { s with files }
  | none => pure ()
  return .int score

/-- `(gamegrid-match-spec-list SPECS)`: the value of the first entry for a terminal. -/
def gridMatchSpecList : Primitive := fun _ args => do
  atLeast "gamegrid-match-spec-list" args 1
  let specs ← properList (arg args 0)
  let s ← store
  let hit := specs.find? fun spec => (s.car spec).symbolName?.any terminalDisplays.contains
  return (hit.map fun spec => s.car (s.cdr spec)).getD .nil

def grid : List (String × Primitive) :=
  [("gamegrid-init", gridInit), ("gamegrid-init-buffer", gridInitBuffer),
   ("gamegrid-set-cell", gridSetCell), ("gamegrid-get-cell", gridGetCell),
   ("gamegrid-start-timer", gridStartTimer), ("gamegrid-set-timer", gridSetTimer),
   ("gamegrid-kill-timer", gridKillTimer), ("gamegrid-add-score", gridAddScore),
   ("gamegrid-make-face", fun _ args => do
      atMost "gamegrid-make-face" args 2
      return .symbol "default"),
   ("gamegrid-match-spec-list", gridMatchSpecList)]

end EditorLisp.Primitives
