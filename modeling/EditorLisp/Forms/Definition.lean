import EditorLisp.Evaluation.Arguments

/-!
# Definitions

Forms that define functions, expanders, variables and faces.
-/

namespace EditorLisp.Forms

open Eval

def defun (expands : Bool) : SpecialForm := fun _ forms frame => do
  formArity (if expands then "defmacro" else "defun") forms 2 none
  let name ← symbolName (forms.getD 0 .nil)
  let c ← closureOf (← list (forms.drop 1)) frame (some name)
  let ref ← alloc (·.addClosure c)
  let value := if expands then Value.expander ref else .closure ref
  modify fun s => { s with functions := s.functions.insert name value }
  return .ofName name

/-- Declare a variable special and give it a global value, unless it has one and is not to
be set anyway. -/
def declareVariable (I : Interp) (frame : Nat) (always : Bool) (forms : List Value) : Eval String := do
  formArity "defvar" forms 1 none
  let name ← symbolName (forms.getD 0 .nil)
  modify (·.declareSpecial name)
  match forms[1]? with
  | some form =>
    if always || !(← session).globals.contains name then
      let value ← I.eval form frame
      modify (·.setGlobal name value)
  | none => pure ()
  return name

/-- `(defvar NAME [FORM])` and, always setting, `(defconst NAME FORM)`. -/
def defvar (always : Bool) : SpecialForm := fun I forms frame => do
  return .ofName (← declareVariable I frame always forms)

/-- `(defvar-local NAME FORM)`: a variable that becomes local when set. -/
def defvarLocal : SpecialForm := fun I forms frame => do
  let name ← declareVariable I frame false forms
  modify fun s => { s with autoLocal := s.autoLocal.insert name () }
  return .ofName name

/-- `(defalias NAME DEFINITION)`.  The name may be quoted or not. -/
def defalias : SpecialForm := fun I forms frame => do
  formArity "defalias" forms 2 (some 3)
  let place := forms.getD 0 .nil
  let target ←
    if ← headIs place "quote" then car (← cdr place)
    else if place.isSymbol then pure place
    else I.eval place frame
  let name ← symbolName target
  let definition ← I.eval (forms.getD 1 .nil) frame
  defineFunction name definition
  return .ofName name

/-- `(defface NAME ...)`: a face is a variable that stands for its own name. -/
def defface : SpecialForm := fun _ forms _ => do
  formArity "defface" forms 1 none
  let name ← symbolName (forms.getD 0 .nil)
  modify (·.setGlobal name (.ofName name))
  return .ofName name

end EditorLisp.Forms
