import EditorLisp.Evaluation.Basic

/-!
# Variables

An ordinary variable is bound in a frame.  A special one has a global value and perhaps a
value in the current buffer; binding it puts a new value into whichever of the two is in
force and remembers what to put back.
-/

namespace EditorLisp

/-- Names that stand for themselves and cannot be assigned. -/
def isConstantName (name : String) : Bool := name == "nil" || name == "t" || name.startsWith ":"

/-- What is needed to undo a dynamic binding. -/
structure SavedBinding where
  name : String
  /-- The buffer in which the variable was local, if it was. -/
  buffer : Option Nat
  /-- The value before, if there was one. -/
  old : Option Value

namespace Session

/-- Whether a variable is bound dynamically. -/
def isSpecial (s : Session) (name : String) : Bool := s.specials.contains name

/-- The value of a variable outside of all frames: in the current buffer, or globally. -/
def outerValue? (s : Session) (name : String) : Option Value :=
  match s.workspace.current?.bind (·.local? name) with
  | some value => some value
  | none => s.globals.get? name

def valueIn? (s : Session) (name : String) (frame : Nat) : Option Value :=
  if s.isSpecial name then s.outerValue? name
  else
    match s.store.lookupIn? frame name with
    | some value => some value
    | none => s.outerValue? name

def setGlobal (s : Session) (name : String) (value : Value) : Session :=
  { s with globals := s.globals.insert name value }

def setLocal (s : Session) (buffer : Nat) (name : String) (value : Value) : Session :=
  { s with workspace := s.workspace.modifyBuffer buffer (·.setLocal name value) }

def declareSpecial (s : Session) (name : String) : Session :=
  { s with specials := s.specials.insert name () }

/-- Set a variable that no frame binds: in the current buffer if it is local there or
becomes so when set, else globally. -/
def setOuter (s : Session) (name : String) (value : Value) : Session :=
  let (id, workspace) := s.workspace.current
  let s := { s with workspace }
  if s.autoLocal.contains name || (workspace.buffer? id).any (·.locals.contains name) then
    s.setLocal id name value
  else s.setGlobal name value

def bindSpecial (s : Session) (name : String) (value : Value) : SavedBinding × Session :=
  match s.workspace.current?.filter (·.locals.contains name) with
  | some b => (⟨name, some b.id, b.local? name⟩, s.setLocal b.id name value)
  | none => (⟨name, none, s.globals.get? name⟩, s.setGlobal name value)

def undoBinding (s : Session) (saved : SavedBinding) : Session :=
  match saved.buffer with
  | none => { s with globals := s.globals.set? saved.name saved.old }
  | some id =>
    match saved.old with
    | some old => s.setLocal id saved.name old
    | none => s

/-- Undo several bindings, the last one first.  They are given in that order. -/
def undoBindings (s : Session) (saved : List SavedBinding) : Session := saved.foldl undoBinding s

/-- Bind several special variables in order; the saved bindings come in the order in which
to undo them. -/
def bindSpecials (s : Session) (bindings : List (String × Value)) : List SavedBinding × Session :=
  bindings.foldl (fun (saved, s) (name, value) =>
    let (binding, s) := s.bindSpecial name value
    (binding :: saved, s)) ([], s)

end Session

namespace Eval

variable {α : Type}

/-- Assign a variable: the nearest frame that binds it, unless it is special, else outside
of all frames.  Constants are refused. -/
def setVariable (name : String) (value : Value) (frame : Nat) : Eval Unit := do
  if isConstantName name then
    signal "setting-constant" [.ofName name]
  else
    let s ← session
    let holder := if s.isSpecial name then none else s.store.binder? frame name
    match holder with
    | some (i, _) => modifyStore (·.defineIn i name value)
    | none => modify (·.setOuter name value)

/-- Run a step with special variables bound, and undo the bindings afterwards, however the
step ended. -/
def withDynamic (bindings : List (String × Value)) (m : Eval α) : Eval α :=
  if bindings.isEmpty then m
  else fun s =>
    let (saved, s) := s.bindSpecials bindings
    (m.ensuring (·.undoBindings saved)) s

end Eval

end EditorLisp
