import EditorLisp.Primitives.List

/-!
# Hooks

A hook is a variable that holds a function or a list of functions, and each buffer may
have functions of its own on it, which run first.
-/

namespace EditorLisp.Primitives

open Eval

def hookItems (s : Store) (v : Value) : List Value :=
  match v with
  | .nil => []
  | .cons _ => if (s.car v).isNamed "lambda" then [v] else (s.list? v).getD [v]
  | other => [other]

def globalHook (s : Session) (hook : String) : List Value :=
  ((s.globals.get? hook).map (hookItems s.store)).getD []

/-- Whether a value is the true value, which stands on a buffer's hook for the global
functions and is passed over. -/
def isPlaceholder : Value → Bool
  | .t => true
  | _ => false

def hookFunctions (hook : String) : Eval (List Value) := do
  let local_ := (← currentBuffer).hooksOf hook
  return local_.filter (!isPlaceholder ·) ++ globalHook (← session) hook

/-- Call functions in turn until a result is accepted. -/
def callUntil (I : Interp) (args : List Value) (stop : Value → Bool) : List Value → Eval (Option Value)
  | [] => pure none
  | function :: rest => do
    let result ← I.apply function args
    if stop result then return some result else callUntil I args stop rest

/-- Run a hook, stopping when a result is accepted. -/
def runHook (I : Interp) (hook : String) (args : List Value) (stop : Value → Bool) :
    Eval (Option Value) := do
  callUntil I args stop (← hookFunctions hook)

def setHook (hook : String) (functions : List Value) : Eval Unit := do
  let value ← list functions
  modify (·.setGlobal hook value)

/-- `(add-hook HOOK FUNCTION &optional APPEND LOCAL)`. -/
def addHook : Primitive := fun _ args => do
  between "add-hook" args 2 4
  let hook ← symbolName (arg args 0)
  let function := arg args 1
  if flag args 3 then
    modifyCurrent (·.addHook hook function (flag args 2))
    return .nil
  else
    let s ← session
    let present := globalHook s hook
    let functions :=
      if present.any (s.store.equal · function) then present
      else if flag args 2 then present ++ [function]
      else function :: present
    modify (·.declareSpecial hook)
    setHook hook functions
    return .nil

/-- `(remove-hook HOOK FUNCTION &optional LOCAL)`. -/
def removeHook : Primitive := fun _ args => do
  between "remove-hook" args 2 3
  let hook ← symbolName (arg args 0)
  if flag args 2 then
    modifyCurrent (·.removeHook hook (arg args 1))
    return .nil
  else
    let s ← session
    if s.globals.contains hook then
      setHook hook ((globalHook s hook).filter fun f => !s.store.equal f (arg args 1))
    return .nil

/-- Run several hooks one after the other. -/
def runAll (I : Interp) : List Value → Eval Unit
  | [] => pure ()
  | hook :: rest => do
    let name ← symbolName hook
    let _ ← runHook I name [] fun _ => false
    runAll I rest

def runHooks : Primitive := fun I args => do
  runAll I args
  return .nil

/-- Run a hook with arguments and make an answer of where it stopped. -/
def runWith (name : String) (stop : Value → Bool) (answer : Option Value → Value) : Primitive :=
  fun I args => do
    atLeast name args 1
    let hook ← symbolName (arg args 0)
    return answer (← runHook I hook (args.drop 1) stop)

def hooks : List (String × Primitive) :=
  [("add-hook", addHook), ("remove-hook", removeHook), ("run-hooks", runHooks),
   ("run-mode-hooks", runHooks),
   ("run-hook-with-args", runWith "run-hook-with-args" (fun _ => false) fun _ => .nil),
   ("run-hook-with-args-until-success",
    runWith "run-hook-with-args-until-success" Value.isTrue (·.getD .nil)),
   ("run-hook-with-args-until-failure",
    runWith "run-hook-with-args-until-failure" Value.isNil fun r => .ofBool r.isNone)]

end EditorLisp.Primitives
