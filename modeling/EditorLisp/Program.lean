import EditorLisp.Interpreter

/-!
# Running programs

A program is read as a whole and its forms are evaluated one after the other at top level.
A text that cannot be read is reported apart from what evaluation may end in, because no
handler of the program sees it.
-/

namespace EditorLisp.Eval

/-- Evaluate forms at top level; the value is that of the last one. -/
def evalAll (forms : List Value) : Eval Value := Interp.top.evalBody Store.rootFrame forms

/-- Evaluate one form at top level. -/
def evalTop (form : Value) : Eval Value := Interp.top.eval form Store.rootFrame

def evalSource (source : String) : Eval (Except Source.Error Value) := do
  match Source.readSource source with
  | .error e => return .error e
  | .ok data =>
    let forms ← alloc (·.enterAll data)
    return .ok (← evalAll forms)

/-- Read a program and evaluate its first form only. -/
def evalFirst (source : String) : Eval (Except Source.Error Value) := do
  match Source.readSource source with
  | .error e => return .error e
  | .ok data =>
    let forms ← alloc (·.enterAll data)
    return .ok (← evalTop (forms.getD 0 .nil))

def evalFile (path : String) : Eval (Except Source.Error Value) := do
  match (← session).files.read? path with
  | none => Primitives.fileMissing "Cannot open load file" path
  | some source =>
    match Source.readSource source with
    | .error e => return .error e
    | .ok data => return .ok (← evalLoaded Interp.top path data)

def funcall (function : Value) (args : List Value) : Eval Value := Interp.top.apply function args

def takeOutput : Eval String := fun s => .ok s.output { s with output := "" }

end EditorLisp.Eval
