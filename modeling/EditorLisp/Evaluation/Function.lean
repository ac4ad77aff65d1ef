import EditorLisp.Evaluation.Interp
import EditorLisp.Evaluation.Variables

/-!
# Functions

How parameter lists are read, functions made and called, and names followed to what they
stand for.
-/

namespace EditorLisp

/-- The parts of a parameter list. -/
inductive ParameterSection where
  | required
  | optional
  | rest
  | ignored

def Parameters.ofNames : ParameterSection → Parameters → List String → Parameters
  | _, p, [] => p
  | part, p, name :: names =>
    if name = "&optional" then ofNames .optional p names
    else if name = "&rest" ∨ name = "&body" then ofNames .rest p names
    else if name = "&key" ∨ name = "&aux" then ofNames .ignored p names
    else
      match part with
      | .required => ofNames part { p with required := p.required ++ [name] } names
      | .optional => ofNames part { p with optional := p.optional ++ [name] } names
      | .rest => ofNames part { p with rest := some name } names
      | .ignored => ofNames part p names

/-- Pair parameters with arguments; optional ones without an argument get `nil`. -/
def Parameters.pairUp (p : Parameters) (args : List Value) : List (String × Value) × List Value :=
  let names := p.required ++ p.optional
  let padded := args ++ List.replicate (names.length - args.length) .nil
  (names.zip padded, args.drop names.length)

namespace Eval

def parameters (spec : Value) : Eval Parameters := do
  let items ← properList spec
  let names ← items.mapM symbolName
  return .ofNames .required {} names

/-- Make a function from a parameter list and a body.  A string before other forms is
documentation, and declarations are dropped. -/
def closureOf (spec : Value) (frame : Nat) (name : Option String) : Eval Closure := do
  let params ← parameters (← car spec)
  let body ← properList (← cdr spec)
  let (doc, body) := match body with
    | .str _ doc :: rest => if rest.isEmpty then (none, body) else (some doc, rest)
    | _ => (none, body)
  let s ← store
  let body := body.filter fun form => !(s.car form).isNamed "declare"
  return { params, body, frame := some frame, doc, name }

def makeClosure (spec : Value) (frame : Nat) (name : Option String) : Eval Value := do
  let c ← closureOf spec frame name
  return .closure (← alloc (·.addClosure c))

/-- Call a function: check the number of arguments, bind the parameters and evaluate the
body. -/
def applyClosure (I : Interp) (c : Closure) (args : List Value) : Eval Value := do
  let received := args.length
  if received < c.params.least ∨ c.params.most?.any (· < received) then
    leave (.arity ⟨c.name, c.params.least, c.params.most?, received⟩)
  else
    let (bindings, more) := c.params.pairUp args
    let bindings ← match c.params.rest with
      | some name => do
        let rest ← list more
        pure (bindings ++ [(name, rest)])
      | none => pure bindings
    let specials ← get (·.specials)
    let (dynamic, lexical) := bindings.partition fun b => specials.contains b.1
    let frame ← alloc (·.childFrameWith (c.frame.getD Store.rootFrame) lexical)
    withDynamic dynamic (I.evalBody frame c.body)

end Eval

namespace Session

/-- The number of aliases that are followed. -/
def aliasLimit : Nat := 32

/-- Follow aliases from a name; a primitive stands for itself. -/
def functionFrom (s : Session) (I : Interp) : Nat → String → Option Value
  | 0, _ => none
  | fuel + 1, name =>
    match s.functions.get? name with
    | some (.symbol next) => functionFrom s I fuel next
    | some value => some value
    | none => if I.isPrimitive name then some (.subr name) else none

def function? (s : Session) (I : Interp) (name : String) : Option Value :=
  s.functionFrom I aliasLimit name

end Session

def specialFormNames : List String :=
  ["quote", "function", "`", "vector-literal", "setq", "setq-local", "setq-default", "if",
   "when", "unless", "cond", "and", "or", "while", "progn", "save-restriction",
   "eval-when-compile", "eval-and-compile", "with-no-warnings", "with-silent-modifications",
   "combine-after-change-calls", "prog1", "prog2", "lambda", "let", "let*", "catch",
   "unwind-protect", "condition-case", "ignore-errors", "dotimes", "dolist", "defun", "defsubst",
   "cl-defun", "defmacro", "cl-defmacro", "defvar", "defcustom", "defconst", "defvar-local",
   "defalias", "defface", "defgroup", "declare-function", "declare", "interactive", "cl-case",
   "case", "cl-assert", "save-excursion", "save-mark-and-excursion", "save-current-buffer",
   "with-current-buffer", "with-temp-buffer", "save-match-data", "save-window-excursion",
   "save-selected-window", "pcase", "cl-loop", "setf", "push", "pop", "incf", "cl-incf", "decf",
   "cl-decf", "cl-rotatef", "define-derived-mode", "define-minor-mode", "defvar-keymap",
   "easy-menu-define"]

def Session.isCallable (s : Session) (I : Interp) (name : String) : Bool :=
  s.functions.contains name || I.isPrimitive name || specialFormNames.contains name

/-- One step of expansion: the expansion if the head of the form is an expander. -/
def Eval.expandOnce (I : Interp) (form : Value) : Eval (Option Value) := do
  let s ← session
  match (s.store.car form).symbolName? with
  | none => return none
  | some name =>
    if s.functions.contains name then
      match s.function? I name with
      | some (.expander ref) =>
        let args ← properList (s.store.cdr form)
        let c := (s.store.closures[ref]?).getD default
        return some (← applyClosure I c args)
      | _ => return none
    else return none

/-- Define the function of a name, making a function of a quoted lambda list. -/
def Eval.defineFunction (name : String) (definition : Value) : Eval Unit := do
  let definition ←
    if ← headIs definition "lambda" then
      makeClosure (← cdr definition) Store.rootFrame (some name)
    else pure definition
  modify fun s => { s with functions := s.functions.insert name definition }

/-- The elements of a list, a vector or a string; those of a string are character
codes. -/
def Eval.sequenceElements (v : Value) : Eval (List Value) := do
  match v with
  | .vector _ => return (((← store).items? v).getD #[]).toList
  | .str _ text => return text.toList.map fun c => .ofNat c.toNat
  | v => properList v "sequencep"

def Eval.formArity (name : String) (forms : List Value) (minimum : Nat) (maximum : Option Nat) :
    Eval Unit :=
  if forms.length < minimum ∨ maximum.any (· < forms.length) then
    wrongArity name minimum maximum forms.length
  else pure ()

end EditorLisp
