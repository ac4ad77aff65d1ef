import EditorLisp.Evaluation.Arguments

/-!
# Control

Conditionals, sequencing, loops, bindings, non-local exits, error handlers and excursions.
-/

namespace EditorLisp.Forms

open Eval

/-! ## Assignment -/

/-- Go through pairs of a name and a form, evaluating each form and storing its value. -/
def assignPairs (I : Interp) (frame : Nat) (store : String → Value → Eval Unit) :
    Value → List Value → Eval Value
  | _, place :: form :: rest => do
    let name ← symbolName place
    let value ← I.eval form frame
    store name value
    assignPairs I frame store value rest
  | last, _ => pure last

def assignment (name : String) (store : Nat → String → Value → Eval Unit) : SpecialForm :=
  fun I forms frame => do
    if forms.length % 2 = 1 then wrongArity name (forms.length + 1) none forms.length
    else assignPairs I frame (store frame) .nil forms

def setq : SpecialForm := assignment "setq" fun frame name value => setVariable name value frame

/-- `(setq-local NAME FORM ...)`: give variables a value in the current buffer. -/
def setqLocal : SpecialForm := assignment "setq-local" fun _ name value =>
  modifyCurrent (·.setLocal name value)

/-- `(setq-default NAME FORM ...)`: set global values. -/
def setqDefault : SpecialForm := assignment "setq-default" fun _ name value =>
  modify (·.setGlobal name value)

/-! ## Conditionals -/

/-- `(if TEST THEN ELSE...)`. -/
def ifForm : SpecialForm := fun I forms frame => do
  match forms with
  | test :: yes :: no =>
    if (← I.eval test frame).isTrue then I.eval yes frame else I.evalBody frame no
  | _ => wrongArity "if" 2 none forms.length

/-- `(when TEST BODY...)` and `(unless TEST BODY...)`. -/
def guarded (name : String) (expected : Bool) : SpecialForm := fun I forms frame => do
  match forms with
  | test :: body =>
    if (← I.eval test frame).isTrue == expected then I.evalBody frame body else pure .nil
  | [] => wrongArity name 1 none 0

/-- The clauses of `cond`, tried in order. -/
def condClauses (I : Interp) (frame : Nat) : List Value → Eval Value
  | [] => pure .nil
  | clause :: rest => do
    match ← properList clause with
    | [] => condClauses I frame rest
    | test :: body =>
      let value ← I.eval test frame
      if value.isTrue then (if body.isEmpty then pure value else I.evalBody frame body)
      else condClauses I frame rest

def cond : SpecialForm := fun I forms frame => condClauses I frame forms

/-- Evaluate forms until one is `nil`. -/
def andForms (I : Interp) (frame : Nat) : Value → List Value → Eval Value
  | last, [] => pure last
  | _, form :: rest => do
    let value ← I.eval form frame
    if value.isTrue then andForms I frame value rest else pure .nil

def andForm : SpecialForm := fun I forms frame => andForms I frame .t forms

/-- Evaluate forms until one is true. -/
def orForms (I : Interp) (frame : Nat) : List Value → Eval Value
  | [] => pure .nil
  | form :: rest => do
    let value ← I.eval form frame
    if value.isTrue then pure value else orForms I frame rest

def orForm : SpecialForm := fun I forms frame => orForms I frame forms

/-- The first of some keys that a value is. -/
def keysHit (s : Store) (keys key : Value) : Bool :=
  match keys with
  | .t => true
  | .symbol "otherwise" => true
  | .cons _ => (s.elements keys).any fun k => k.sameNumber key
  | .nil => false
  | other => other.sameNumber key

/-- The clauses of `cl-case`, tried in order. -/
def caseClauses (I : Interp) (frame : Nat) (key : Value) : List Value → Eval Value
  | [] => pure .nil
  | clause :: rest => do
    let s ← store
    if keysHit s (s.car clause) key then
      I.evalBody frame ((s.list? (s.cdr clause)).getD [])
    else caseClauses I frame key rest

def clCase : SpecialForm := fun I forms frame => do
  formArity "cl-case" forms 1 none
  let key ← I.eval (forms.getD 0 .nil) frame
  caseClauses I frame key (forms.drop 1)

/-! ## Sequences and loops -/

def progn : SpecialForm := fun I forms frame => I.evalBody frame forms

def prog1 : SpecialForm := fun I forms frame => do
  formArity "prog1" forms 1 none
  let first ← I.eval (forms.getD 0 .nil) frame
  let _ ← I.evalBody frame (forms.drop 1)
  return first

def prog2 : SpecialForm := fun I forms frame => do
  formArity "prog2" forms 2 none
  let _ ← I.eval (forms.getD 0 .nil) frame
  let second ← I.eval (forms.getD 1 .nil) frame
  let _ ← I.evalBody frame (forms.drop 2)
  return second

/-- Repeat while a test is true. -/
def whileLoop (I : Interp) (frame : Nat) (test : Value) (body : List Value) : Nat → Eval Value
  | 0 => unfinished
  | fuel + 1 => do
    if (← I.eval test frame).isTrue then
      let _ ← I.evalBody frame body
      whileLoop I frame test body fuel
    else pure .nil

def whileForm : SpecialForm := fun I forms frame => do
  formArity "while" forms 1 none
  whileLoop I frame (forms.getD 0 .nil) (forms.drop 1) I.fuel

/-- Count a variable up, starting at `i`, for a number of rounds. -/
def countLoop (I : Interp) (frame : Nat) (var : String) (body : List Value) :
    Nat → Int64 → Value → Eval Value
  | 0, _, last => pure last
  | rounds + 1, i, _ => do
    modifyStore (·.defineIn frame var (.int i))
    let last ← I.evalBody frame body
    countLoop I frame var body rounds (i + 1) last

def dotimes : SpecialForm := fun I forms frame => do
  formArity "dotimes" forms 1 none
  let spec ← properList (forms.getD 0 .nil)
  formArity "dotimes" spec 2 (some 3)
  let var ← symbolName (spec.getD 0 .nil)
  let count ← integer (← I.eval (spec.getD 1 .nil) frame)
  let frame ← alloc (·.childFrameWith frame [(var, .int 0)])
  let last ← countLoop I frame var (forms.drop 1) count.toInt.toNat 0 .nil
  match spec[2]? with
  | some result =>
    modifyStore (·.defineIn frame var (.int (if count < 0 then 0 else count)))
    I.eval result frame
  | none => pure last

/-- Bind a variable to each item in turn. -/
def itemLoop (I : Interp) (frame : Nat) (var : String) (body : List Value) :
    Value → List Value → Eval Value
  | last, [] => pure last
  | _, item :: rest => do
    modifyStore (·.defineIn frame var item)
    let last ← I.evalBody frame body
    itemLoop I frame var body last rest

def dolist : SpecialForm := fun I forms frame => do
  formArity "dolist" forms 1 none
  let spec ← properList (forms.getD 0 .nil)
  formArity "dolist" spec 2 (some 3)
  let var ← symbolName (spec.getD 0 .nil)
  let items ← sequenceElements (← I.eval (spec.getD 1 .nil) frame)
  let frame ← alloc (·.childFrameWith frame [(var, .nil)])
  let last ← itemLoop I frame var (forms.drop 1) .nil items
  match spec[2]? with
  | some result =>
    modifyStore (·.defineIn frame var .nil)
    I.eval result frame
  | none => pure last

/-! ## Bindings -/

def lambda : SpecialForm := fun _ forms frame => do
  makeClosure (← list forms) frame none

def bindings (spec : Value) : Eval (List (String × Option Value)) := do
  let items ← properList spec
  items.mapM fun item => do
    match item with
    | .cons _ =>
      let name ← symbolName (← car item)
      let rest ← cdr item
      let form ← car rest
      return (name, if rest.isCons then some form else none)
    | other => return (← symbolName other, none)

/-- The value of an initial form, `nil` if there is none. -/
def initial (I : Interp) (frame : Nat) : Option Value → Eval Value
  | some form => I.eval form frame
  | none => pure .nil

/-- Evaluate initial forms in the outer frame, sorting the bindings into dynamic and
lexical ones as each value comes in. -/
def letValues (I : Interp) (frame : Nat) :
    List (String × Value) → List (String × Value) → List (String × Option Value) →
      Eval (List (String × Value) × List (String × Value))
  | dynamic, lexical, [] => pure (dynamic.reverse, lexical.reverse)
  | dynamic, lexical, (name, form) :: rest => do
    let value ← initial I frame form
    if (← session).isSpecial name then letValues I frame ((name, value) :: dynamic) lexical rest
    else letValues I frame dynamic ((name, value) :: lexical) rest

/-- `(let (BINDING...) BODY...)`. -/
def letForm : SpecialForm := fun I forms frame => do
  match forms with
  | spec :: body =>
    let (dynamic, lexical) ← letValues I frame [] [] (← bindings spec)
    let inner ← alloc (·.childFrameWith frame lexical)
    withDynamic dynamic (I.evalBody inner body)
  | [] => wrongArity "let" 1 none 0

/-- Bind one variable after the other, each seeing those before it, and evaluate the body.
Dynamic bindings are undone on the way out. -/
def letSequence (I : Interp) (frame : Nat) (body : List Value) :
    List (String × Option Value) → Eval Value
  | [] => I.evalBody frame body
  | (name, form) :: rest => do
    let value ← initial I frame form
    if (← session).isSpecial name then
      withDynamic [(name, value)] (letSequence I frame body rest)
    else
      modifyStore (·.defineIn frame name value)
      letSequence I frame body rest

/-- `(let* (BINDING...) BODY...)`. -/
def letStar : SpecialForm := fun I forms frame => do
  match forms with
  | spec :: body =>
    let parsed ← bindings spec
    let inner ← alloc (·.childFrame frame)
    letSequence I inner body parsed
  | [] => wrongArity "let*" 1 none 0

/-! ## Non-local exits -/

/-- Tags match by identity, numbers and strings by value. -/
def tagMatches : Value → Value → Bool
  | .str _ a, .str _ b => a == b
  | a, b => a.sameNumber b

def catchForm : SpecialForm := fun I forms frame => do
  formArity "catch" forms 1 none
  let tag ← I.eval (forms.getD 0 .nil) frame
  match ← attempt (I.evalBody frame (forms.drop 1)) with
  | .ok value => return value
  | .error (.throw thrown value) =>
    if tagMatches tag thrown then return value else leave (.throw thrown value)
  | .error flow => leave flow

/-- `(unwind-protect FORM CLEANUP...)`: the way out of the form wins over that of the
clean-up. -/
def unwindProtect : SpecialForm := fun I forms frame => do
  formArity "unwind-protect" forms 1 none
  let primary ← attempt (I.eval (forms.getD 0 .nil) frame)
  let cleanup ← attempt (I.evalBody frame (forms.drop 1))
  match primary, cleanup with
  | .error flow, _ => leave flow
  | .ok _, .error flow => leave flow
  | .ok value, .ok _ => return value

/-- Whether a handler's specification, a name or a list of names, covers a condition. -/
def specCovers (s : Session) (spec : Value) (condition : String) : Bool :=
  match spec with
  | .cons _ => (s.store.elements spec).any fun item =>
    item.symbolName?.any fun name => s.conditions.handles name condition
  | other => other.symbolName?.any fun name => name ≠ "nil" && s.conditions.handles name condition

/-- Run a handler's body with its variable bound, unless that is `nil`. -/
def runHandler (I : Interp) (frame : Nat) (handler : Value) (var : String) (value : Value) :
    Eval Value := do
  let body := (← list? (← cdr handler)).getD []
  if var = "nil" then I.evalBody frame body
  else if (← session).isSpecial var then withDynamic [(var, value)] (I.evalBody frame body)
  else
    let inner ← alloc (·.childFrameWith frame [(var, value)])
    I.evalBody inner body

/-- The first handler for a condition; one for success does not count. -/
def handlerFor? (s : Session) (condition : String) (handlers : List Value) : Option Value :=
  handlers.find? fun handler =>
    let spec := s.store.car handler
    !spec.isNamed ":success" && specCovers s spec condition

def conditionCase : SpecialForm := fun I forms frame => do
  formArity "condition-case" forms 2 none
  let var ← symbolName (forms.getD 0 .nil)
  let handlers := forms.drop 2
  match handlers.find? (!·.isList) with
  | some handler => error ("Invalid condition handler: " ++ (← session).print handler)
  | none =>
    match ← attempt (I.eval (forms.getD 1 .nil) frame) with
    | .ok value =>
      let s ← store
      match handlers.find? fun handler => (s.car handler).isNamed ":success" with
      | some handler => runHandler I frame handler var value
      | none => return value
    | .error flow =>
      let s ← session
      match flow.condition?.bind fun condition => handlerFor? s condition handlers with
      | some handler =>
        let record ← alloc flow.record
        runHandler I frame handler var record
      | none => leave flow

def ignoreErrors : SpecialForm := fun I forms frame => do
  match ← attempt (I.evalBody frame forms) with
  | .ok value => return value
  | .error flow =>
    let conditions ← get (·.conditions)
    if flow.condition?.any fun name => conditions.handles Conditions.root name then return .nil
    else leave flow

def clAssert : SpecialForm := fun I forms frame => do
  formArity "cl-assert" forms 1 none
  let form := forms.getD 0 .nil
  if (← I.eval form frame).isTrue then return .nil
  else signal "cl-assertion-failed" [form]

def skipped : SpecialForm := fun _ _ _ => pure .nil

/-! ## Excursions

Forms that run a body and then put the current buffer, the point, the match data or the
windows back as they were, however the body ended. -/

def saveExcursion : SpecialForm := fun I forms frame => do
  let buffer ← currentId
  let point := (← currentBuffer).point
  (I.evalBody frame forms).ensuring fun s =>
    { s with workspace := (s.workspace.setCurrent buffer).modifyBuffer buffer (·.goto point) }

def saveCurrentBuffer : SpecialForm := fun I forms frame =>
  withBuffer none (I.evalBody frame forms)

def withCurrentBuffer : SpecialForm := fun I forms frame => do
  formArity "with-current-buffer" forms 1 none
  let id ← liveBuffer (← I.eval (forms.getD 0 .nil) frame)
  withBuffer (some id) (I.evalBody frame (forms.drop 1))

def withTempBuffer : SpecialForm := fun I forms frame => do
  modify fun s => { s with tempCount := s.tempCount + 1 }
  let base := "*temp-" ++ toString (← get (·.tempCount)) ++ "*"
  let id ← onWorkspace (·.generate base)
  (withBuffer (some id) (I.evalBody frame forms)).ensuring fun s =>
    { s with workspace := (s.workspace.kill? id).getD s.workspace }

def saveMatchData : SpecialForm := fun I forms frame => do
  let saved ← get (·.matchData)
  (I.evalBody frame forms).ensuring fun s => { s with matchData := saved }

def saveWindowExcursion : SpecialForm := fun I forms frame => do
  let layout ← onWorkspace (·.capture)
  (I.evalBody frame forms).ensuring fun s => { s with workspace := s.workspace.restore layout }

def saveSelectedWindow : SpecialForm := fun I forms frame => do
  let selected ← onWorkspace (·.ensureSelected)
  (I.evalBody frame forms).ensuring fun s =>
    { s with workspace := s.workspace.selectWindow selected }

end EditorLisp.Forms
