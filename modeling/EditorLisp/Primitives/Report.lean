import EditorLisp.Primitives.String

/-!
# Messages, errors and printed output

Primitives that tell something: to the reader of messages, to the handler of an error, or
to the taker of the output.
-/

namespace EditorLisp.Primitives

open Eval

/-! ## Messages and errors -/

def formattedArgs (args : List Value) : Eval String := do
  formatted (← string (arg args 0)) (args.drop 1)

def message : Primitive := fun _ args => do
  atLeast "message" args 1
  if (arg args 0).isNil then return .nil
  else
    let out ← formattedArgs args
    modify fun s => { s with messages := s.messages.push out }
    text out

def formatMessage : Primitive := fun _ args => do
  atLeast "format-message" args 1
  text (← formattedArgs args)

/-- An error with a formatted message under a condition. -/
def complaint (name : String) : Primitive := fun _ args => do
  atLeast name args 1
  leave (.signal name (← text (← formattedArgs args)))

/-- `(signal CONDITION DATA)`. -/
def signalForm : Primitive := binary "signal" fun condition data => do
  leave (.signal (← symbolName condition) data)

def throwForm : Primitive := binary "throw" fun tag value => leave (.throw tag value)

/-- What is said of a condition that has no message. -/
def peculiar : String := "peculiar error"

def explain (s : Session) (record : Value) : String :=
  let name := (s.store.car record).symbolName?.getD Conditions.root
  let data := s.store.car (s.store.cdr record)
  let plain := name == Conditions.root || name == "user-error"
  let message := ((s.conditions.message? name).filter (· ≠ "")).getD peculiar
  match data with
  | .nil => message
  | .str _ text =>
    if plain || !s.conditions.isDefined name then text
    else if text = name then message
    else message ++ ": " ++ text
  | .cons _ =>
    let items := (s.store.list? data).getD [data]
    match plain, items.head? with
    | true, some (.str _ text) => text
    | _, _ => message ++ ": " ++ ", ".intercalate (items.map s.print)
  | other => message ++ ": " ++ s.print other

/-- `(error-message-string RECORD)`. -/
def errorMessageString : Primitive := unary "error-message-string" fun record => do
  if record.isCons then text (explain (← session) record) else wrongType "consp" record

/-- `(define-error NAME MESSAGE &optional PARENT)`: of several parents the first one
counts. -/
def defineError : Primitive := fun _ args => do
  between "define-error" args 2 3
  let name ← symbolName (arg args 0)
  let message ← match arg args 1 with
    | .nil => pure ""
    | other => string other
  let parent ← match given? args 2 with
    | none => pure Conditions.root
    | some v => do
      let head ← car v
      symbolName (if v.isCons then head else v)
  match (← session).conditions.define name message parent with
  | .ok conditions =>
    modify fun s => { s with conditions }
    return .nil
  | .error refusal => error refusal.message

/-! ## Output -/

/-- Call a function with each character of a text. -/
def emitChars (I : Interp) (function : Value) : List Char → Eval Unit
  | [] => pure ()
  | c :: rest => do
    let _ ← I.apply function [.ofNat c.toNat]
    emitChars I function rest

/-- Send a text to a buffer, character by character to a function, or to the output. -/
def emit (I : Interp) (out : String) (target : Value) : Eval Unit := do
  match target with
  | .buffer _ | .str _ _ => modifyBuffer (← liveBuffer target) (·.insert out)
  | .closure _ | .symbol _ => emitChars I target out.toList
  | _ => modify fun s => { s with output := s.output ++ out }

/-- A primitive that prints its first argument. -/
def printer (name : String) (maximum : Nat) (form : Session → Value → String) : Primitive :=
  fun I args => do
    between name args 1 maximum
    let out := form (← session) (arg args 0)
    emit I out (arg args 1)
    return arg args 0

/-- `(terpri &optional TARGET)`. -/
def terpri : Primitive := fun I args => do
  atMost "terpri" args 2
  emit I "\n" (arg args 0)
  return .t

def reports : List (String × Primitive) :=
  [("message", message), ("format-message", formatMessage), ("error", complaint "error"),
   ("user-error", complaint "user-error"), ("signal", signalForm), ("throw", throwForm),
   ("error-message-string", errorMessageString), ("define-error", defineError),
   ("princ", printer "princ" 2 Session.display), ("prin1", printer "prin1" 3 Session.print),
   ("print", printer "print" 2 fun s v => "\n" ++ s.print v ++ "\n"), ("terpri", terpri)]

end EditorLisp.Primitives
