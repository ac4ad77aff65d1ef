import EditorLisp.Forms
import EditorLisp.Primitives

/-!
# The interpreter

Evaluation of forms and application of functions.  Both are written against the level of
the interpreter below, and `atLevel` ties the levels together: level zero never finishes, and
each level answers a request with the help of the one below it.  The bound on the levels
is far beyond what any program reaches, because the nesting of forms is limited by the
configuration and only loops count levels down without nesting.
-/

namespace EditorLisp

namespace Eval

def callPrimitive (I : Interp) (name : String) (args : List Value) : Eval Value :=
  match primitive? name with
  | some primitive => primitive I args
  | none => leave (.unimplemented name)

/-- Evaluate a call whose head is a symbol: a function of the program comes first, then
special forms, then primitives.  A name that stands for nothing is noticed before the
arguments are evaluated. -/
def evalNamed (I : Interp) (name : String) (forms : List Value) (frame : Nat) : Eval Value := do
  let s ← session
  if s.functions.contains name then
    match s.function? I name with
    | some (.expander ref) =>
      let expansion ← applyClosure I ((s.store.closures[ref]?).getD default) forms
      I.eval expansion frame
    | some function =>
      let args ← I.evalArgs frame forms
      I.apply function args
    | none => leave (.unimplemented name)
  else
    match specialForm? name with
    | some form => form I forms frame
    | none =>
      match primitive? name with
      | some primitive =>
        let args ← I.evalArgs frame forms
        primitive I args
      | none => leave (.unimplemented name)

/-- Evaluate a pair: a call.  A function that is written in front is called and forgotten, so
it takes no place in the store. -/
def evalCall (I : Interp) (form : Value) (frame : Nat) : Eval Value := do
  let head ← car form
  let forms ← properList (← cdr form)
  match head with
  | .symbol name => evalNamed I name forms frame
  | head =>
    if head.isCons && (← headIs head "lambda") then
      let function ← closureOf (← cdr head) frame none
      let args ← I.evalArgs frame forms
      applyClosure I function args
    else signal "invalid-function" [head]

/-- Evaluate a form, unless evaluation is nested too deeply.  A symbol stands for the value
of its variable, a pair is a call, and anything else stands for itself. -/
def evalForm (I : Interp) (form : Value) (frame : Nat) : Eval Value := fun s =>
  if s.config.maxDepth < s.depth + 1 then
    signal "excessive-lisp-nesting" [.ofNat s.config.maxDepth] s
  else
    match form with
    | .symbol name =>
      match s.valueIn? name frame with
      | some value => .ok value s
      | none => signal "void-variable" [.ofName name] s
    | .cons ref =>
      ((evalCall I (.cons ref) frame).ensuring fun s => { s with depth := s.depth - 1 })
        { s with depth := s.depth + 1 }
    | atom => .ok atom s

def applyValue (I : Interp) (function : Value) (args : List Value) : Eval Value := do
  match function with
  | .closure ref => applyClosure I (((← store).closures[ref]?).getD default) args
  | .subr name => callPrimitive I name args
  | .nil => signal "void-function" [.nil]
  | .symbol name | .keyword name =>
    match (← session).function? I name with
    | some (.expander _) => signal "invalid-function" [function]
    | some resolved => I.apply resolved args
    | none => leave (.unimplemented name)
  | .t => leave (.unimplemented "t")
  | .expander _ => signal "invalid-function" [function]
  | other =>
    if other.isCons && (← headIs other "lambda") then
      let closure ← makeClosure (← cdr other) Store.rootFrame none
      I.apply closure args
    else wrongType "functionp" other

/-- Answer a request with the help of the level below. -/
def answer (I : Interp) : Request → Eval Value
  | .eval form frame => evalForm I form frame
  | .apply function args => applyValue I function args

/-- The interpreter of some number of levels. -/
def atLevel : Nat → Request → Eval Value
  | 0, _ => unfinished
  | level + 1, request => answer ⟨level, atLevel level, isPrimitive⟩ request

end Eval

namespace Interp

/-- The interpreter of some number of levels, as seen from above. -/
def ofLevel (level : Nat) : Interp := ⟨level, Eval.atLevel level, EditorLisp.isPrimitive⟩

/-- The number of levels that programs are run with. -/
def topLevel : Nat := Number.twoTo 62

def top : Interp := ofLevel topLevel

end Interp

end EditorLisp
