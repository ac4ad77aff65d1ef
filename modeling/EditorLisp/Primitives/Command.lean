import EditorLisp.Primitives.Symbol

/-!
# Commands

A command is a function that a key or a program invokes on behalf of the user.  Most take
no arguments; one that asks for an argument is called again with the prefix argument.
Whether it asked is read off the arity error it left by, not off the wording of it.
-/

namespace EditorLisp

open Eval

/-- Primitives that count as commands. -/
def commandNames : List String :=
  ["forward-char", "backward-char", "forward-line", "beginning-of-line", "end-of-line",
   "forward-word", "backward-word", "newline", "delete-char", "erase-buffer", "kill-buffer",
   "switch-to-buffer", "split-window", "delete-window", "delete-other-windows", "ignore"]

def Session.resolve? (s : Session) (I : Interp) (v : Value) : Option Value :=
  match v with
  | .symbol name => s.function? I name
  | other => some other

/-- The name under which a function reports a wrong number of arguments. -/
def Session.reportedName? (s : Session) (I : Interp) (v : Value) : Option String :=
  match s.resolve? I v with
  | some (.subr name) => some name
  | some (.closure ref) => (s.store.closures[ref]?).bind Closure.name
  | _ => none

/-- Whether a function was itself left by an arity error for a number of arguments, as
opposed to something that it called. -/
def Session.refuses (s : Session) (I : Interp) (function : Value) (received : Nat) : Flow → Option ArityError
  | .arity e =>
    if e.received = received ∧ e.function = s.reportedName? I function then some e else none
  | _ => none

def Session.isCommand (s : Session) (I : Interp) (v : Value) : Bool :=
  match s.resolve? I v with
  | some (.closure ref) =>
    (s.store.closures[ref]?).any fun c => c.body.any fun form => (s.store.car form).isNamed "interactive"
  | some (.subr name) => commandNames.contains name
  | some (.str _ _) | some (.vector _) => true
  | _ => false

namespace Eval

def noteCommand (function : Value) : Eval Unit :=
  match function.symbolName? with
  | some name => modify (·.setGlobal "this-command" (.ofName name))
  | none => pure ()

/-- Call a command that needs an argument: with the given one, else with one, else with
`nil` if a number was not welcome. -/
def callWithArgument (I : Interp) (function : Value) (argument : Option Value) : Eval Value := do
  match argument with
  | some v => I.apply function [v]
  | none =>
    match ← attempt (I.apply function [.int 1]) with
    | .ok value => return value
    | .error (.wrongType _ _) => I.apply function [.nil]
    | .error flow => leave flow

/-- Call a command, without arguments or, if it needs one, with one. -/
def callCommand (I : Interp) (function : Value) (argument : Option Value) : Eval Value := do
  match ← attempt (I.apply function []) with
  | .ok value => return value
  | .error flow =>
    if ((← session).refuses I function 0 flow).any (·.minimum == 1) then
      callWithArgument I function argument
    else leave flow

/-- Run a command and note that it ran, however it ended. -/
def invokeCommand (I : Interp) (function : Value) (argument : Option Value) : Eval Value := do
  noteCommand function
  (callCommand I function argument).ensuring fun s =>
    s.setGlobal "last-command" ((s.globals.get? "this-command").getD .nil)

end Eval

namespace Primitives

open Eval

/-- The prefix argument, if there is one. -/
def currentArgument? : Eval (Option Value) := do
  return ((← session).globals.get? "current-prefix-arg").filter Value.isTrue

def isCallableValue (s : Session) (I : Interp) (v : Value) : Bool :=
  match v with
  | .symbol name => s.isCallable I name
  | other => isFunction other

def callInteractively : Primitive := fun I args => do
  between "call-interactively" args 1 3
  let v := arg args 0
  let s ← session
  if s.isCommand I v || isCallableValue s I v then invokeCommand I v (← currentArgument?)
  else wrongType "commandp" v

def commandExecute : Primitive := fun I args => do
  between "command-execute" args 1 4
  invokeCommand I (arg args 0) (← currentArgument?)

def funcallInteractively : Primitive := fun I args => do
  atLeast "funcall-interactively" args 1
  noteCommand (arg args 0)
  I.apply (arg args 0) (args.drop 1)

/-- `(call-fn NAME ARGUMENT...)`: the name may be a string. -/
def callFn : Primitive := fun I args => do
  atLeast "call-fn" args 1
  let function := match arg args 0 with
    | .str _ name => .ofName name
    | other => other
  let s ← session
  match function.symbolName?.filter fun name => !s.isCallable I name with
  | some name => leave (.unimplemented name)
  | none => I.apply function (args.drop 1)

def commandp : Primitive := fun I args => do
  atLeast "commandp" args 1
  atMost "commandp" args 2
  bool ((← session).isCommand I (arg args 0))

def commands : List (String × Primitive) :=
  [("call-interactively", callInteractively), ("command-execute", commandExecute),
   ("funcall-interactively", funcallInteractively), ("call-fn", callFn), ("commandp", commandp)]

end Primitives

end EditorLisp
