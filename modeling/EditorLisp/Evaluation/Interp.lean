import EditorLisp.Evaluation.Basic

/-!
# Calling back into the interpreter

Special forms and primitives evaluate forms and apply functions, while the interpreter is
built from special forms and primitives.  The knot is tied by a bound: each level of the
interpreter is handed the level below it as an `Interp`, and the lowest level never
finishes.  A step that loops without going deeper counts down the same bound.
-/

namespace EditorLisp

/-- What the interpreter can be asked to do. -/
inductive Request where
  /-- Evaluate a form in a frame. -/
  | eval (form : Value) (frame : Nat)
  /-- Apply a function to values. -/
  | apply (function : Value) (args : List Value)

/-- The interpreter one level down. -/
structure Interp where
  /-- The bound that is left for loops. -/
  fuel : Nat
  /-- Answer a request. -/
  call : Request → Eval Value
  /-- Whether a name is that of a primitive. -/
  isPrimitive : String → Bool

/-- A primitive: a function of evaluated arguments. -/
abbrev Primitive : Type := Interp → List Value → Eval Value

/-- A special form: a function of the forms of its call and the frame around it. -/
abbrev SpecialForm : Type := Interp → List Value → Nat → Eval Value

namespace Interp

@[inline] def eval (I : Interp) (form : Value) (frame : Nat) : Eval Value := I.call (.eval form frame)

@[inline] def apply (I : Interp) (function : Value) (args : List Value) : Eval Value :=
  I.call (.apply function args)

/-- Evaluate forms in order; the value is that of the last one. -/
def evalBody (I : Interp) (frame : Nat) : List Value → Eval Value
  | [] => pure .nil
  | [form] => I.eval form frame
  | form :: rest => do
    let _ ← I.eval form frame
    evalBody I frame rest

/-- Evaluate forms in order and collect their values. -/
def evalArgs (I : Interp) (frame : Nat) : List Value → Eval (List Value)
  | [] => pure []
  | form :: rest => do
    let value ← I.eval form frame
    return value :: (← evalArgs I frame rest)

end Interp

end EditorLisp
