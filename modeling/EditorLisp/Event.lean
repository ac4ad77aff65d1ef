import EditorLisp.Program

/-!
# Input and timers

What happens when a key is pressed or a timer comes due.  A command that fails leaves a
message; a timer that fails is stopped.
-/

namespace EditorLisp

/-- What became of a timer that was to be fired. -/
inductive TimerOutcome where
  /-- The function returned. -/
  | fired (value : Value)
  /-- The function quit, and the timer was stopped. -/
  | quit
  /-- The function failed, and the timer was stopped. -/
  | failed (flow : Flow)
  /-- There is no such timer, or it is not active. -/
  | inactive

namespace Eval

/-! ## Keys -/

/-- The first binding among several descriptions of a key. -/
def firstBinding? : List String → Eval (Option Value)
  | [] => pure none
  | key :: rest => do
    match ← Primitives.activeBinding? key with
    | some binding => return some binding
    | none => firstBinding? rest

def inputBinding? (code : Int64) : Eval (Option Value) := do
  return (← firstBinding? (Key.candidates code.toInt)).filter Value.isTrue

def showMessage (message : String) : Eval Unit :=
  modify fun s => { s with messages := s.messages.push message }

/-- Run the command bound to an input code; the answer tells whether there was one.  If it
fails, a message says how. -/
def handleInput (code : Int64) : Eval Bool := do
  match ← inputBinding? code with
  | none => return false
  | some command =>
    modify (·.setGlobal "last-command-event" (.int code))
    match ← attempt (invokeCommand Interp.top command none) with
    | .ok _ => return true
    | .error flow =>
      let s ← session
      showMessage (s.print command ++ ": " ++ flow.message s.store)
      return true

/-! ## Timers -/

/-- Call the function of a timer: with its arguments or, if it has none, with the current
buffer, and with nothing if one argument was not welcome. -/
def callTimer (timer : Timer) : Eval Value := do
  if timer.args.isEmpty then
    let buffer := Value.buffer (← currentId)
    match ← attempt (funcall timer.callback [buffer]) with
    | .ok value => return value
    | .error flow =>
      if ((← session).refuses Interp.top timer.callback 1 flow).isSome then
        funcall timer.callback []
      else leave flow
  else funcall timer.callback timer.args

def fireTimer (id : Nat) : Eval TimerOutcome := do
  match ((← session).timers.get? id).filter Timer.active with
  | none => return .inactive
  | some timer =>
    if let some period := timer.period then Primitives.checkReach period
    let now ← Primitives.readClock
    modify fun s => { s with timers := s.timers.markFired id now }
    match ← attempt (callTimer timer) with
    | .ok value => return .fired value
    | .error flow =>
      modify fun s => { s with timers := s.timers.deactivate id }
      let conditions ← get (·.conditions)
      if flow.condition?.any (conditions.handles "quit" ·) then return .quit
      else return .failed flow

/-- The timers that are due some nanoseconds from now. -/
def dueTimers (ahead : Nat) : Eval (List Nat) := do
  let now ← Primitives.readClock
  get (·.timers.due (now + ahead))

/-- Fire several timers in order. -/
def fireTimers : List Nat → Eval (List (Nat × TimerOutcome))
  | [] => pure []
  | id :: rest => do
    let outcome ← fireTimer id
    return (id, outcome) :: (← fireTimers rest)

end Eval

end EditorLisp
