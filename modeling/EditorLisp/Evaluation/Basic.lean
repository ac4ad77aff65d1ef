import EditorLisp.Session

/-!
# Evaluation steps

An evaluation step takes a session and either returns a value with the session after it,
leaves by some other way with the session as it is then, crashes, or does not finish within
its bound.  The four outcomes are kept apart: nothing that a program can write observes or
catches the last two.

Steps form a monad.  What a step did to the session before it left is kept, so a handler
runs in the session that the failure left behind.
-/

namespace EditorLisp

/-- What became of an evaluation step. -/
inductive Outcome (α : Type) where
  /-- It returned. -/
  | ok (value : α) (session : Session)
  /-- It left by another way. -/
  | exit (flow : Flow) (session : Session)
  /-- A number outgrew the machine word that was to hold it, which ends the whole run. -/
  | crashed (session : Session)
  /-- It did not finish within its bound. -/
  | unfinished

def Eval (α : Type) : Type := Session → Outcome α

namespace Eval

variable {α β : Type}

@[inline] def run (m : Eval α) (s : Session) : Outcome α := m s

@[always_inline, inline] protected def pure (a : α) : Eval α := fun s => .ok a s

@[always_inline, inline] protected def bind (m : Eval α) (f : α → Eval β) : Eval β := fun s =>
  match m s with
  | .ok a s => f a s
  | .exit flow s => .exit flow s
  | .crashed s => .crashed s
  | .unfinished => .unfinished

@[always_inline] instance : Monad Eval where
  pure := Eval.pure
  bind := Eval.bind

instance : Inhabited (Eval α) := ⟨fun _ => .unfinished⟩

@[always_inline, inline] def leave (flow : Flow) : Eval α := fun s => .exit flow s

@[always_inline, inline] def unfinished : Eval α := fun _ => .unfinished

@[always_inline, inline] def crash : Eval α := fun s => .crashed s

/-- A result that is taken for granted: crash where there is none. -/
def granted (result : Option α) : Eval α :=
  match result with
  | some a => pure a
  | none => crash

@[always_inline, inline] def session : Eval Session := fun s => .ok s s

@[always_inline, inline] def get (f : Session → α) : Eval α := fun s => .ok (f s) s

@[always_inline, inline] def modify (f : Session → Session) : Eval Unit := fun s => .ok () (f s)

/-- Run a step and look at how it ended, unless it crashed or did not finish. -/
@[always_inline, inline] def attempt (m : Eval α) : Eval (Except Flow α) := fun s =>
  match m s with
  | .ok a s => .ok (.ok a) s
  | .exit flow s => .ok (.error flow) s
  | .crashed s => .crashed s
  | .unfinished => .unfinished

/-- Run a step and then a change of the session, whether it returned or left. -/
@[always_inline, inline] def ensuring (m : Eval α) (after : Session → Session) : Eval α := fun s =>
  match m s with
  | .ok a s => .ok a (after s)
  | .exit flow s => .exit flow (after s)
  | .crashed s => .crashed s
  | .unfinished => .unfinished

/-! ## Objects -/

@[always_inline, inline] def alloc (f : Store → α × Store) : Eval α := fun s =>
  let store := s.store
  let s := { s with store := {} }
  let (a, store) := f store
  .ok a { s with store }

@[always_inline, inline] def store : Eval Store := fun s => .ok s.store s

@[always_inline, inline] def modifyStore (f : Store → Store) : Eval Unit := fun s =>
  let store := s.store
  let s := { s with store := {} }
  .ok () { s with store := f store }

def cons (car cdr : Value) : Eval Value := alloc (·.cons car cdr)

def list (items : List Value) : Eval Value := alloc (·.list items)

def listWithTail (items : List Value) (tail : Value) : Eval Value := alloc (·.listWithTail items tail)

def vector (items : List Value) : Eval Value := alloc (·.vector items.toArray)

def text (s : String) : Eval Value := alloc (·.text s)

def enter (d : Datum) : Eval Value := alloc (·.enter d)

/-- The first part of a pair. -/
def car (v : Value) : Eval Value := get (·.store.car v)

def cdr (v : Value) : Eval Value := get (·.store.cdr v)

/-- The elements of a list up to the first tail that is no pair. -/
def elements (v : Value) : Eval (List Value) := get (·.store.elements v)

def list? (v : Value) : Eval (Option (List Value)) := get (·.store.list? v)

def headIs (v : Value) (name : String) : Eval Bool := get fun s => (s.store.car v).isNamed name

/-! ## Failures -/

def signal (condition : String) (data : List Value) : Eval α := do
  leave (.signal condition (← list data))

/-- Signal a plain error with a message. -/
def error (message : String) : Eval α := do
  leave (.signal "error" (← text message))

def wrongType (predicate : String) (got : Value) : Eval α := leave (.wrongType predicate got)

def wrongArity (name : String) (minimum : Nat) (maximum : Option Nat) (received : Nat) : Eval α :=
  leave (.arity ⟨some name, minimum, maximum, received⟩)

/-- The elements of a list, or a complaint that it is none. -/
def properList (v : Value) (predicate : String := "listp") : Eval (List Value) := fun s =>
  match s.store.list? v with
  | some items => .ok items s
  | none => .exit (.wrongType predicate v) s

/-- The name of a symbol, or a complaint that it is none. -/
def symbolName (v : Value) : Eval String :=
  match v.symbolName? with
  | some name => pure name
  | none => wrongType "symbolp" v

/-!
## The workspace during evaluation

Access to the current buffer.  Asking for it repairs the selection first, so there always
is one.
-/

@[inline] def workspace : Eval Workspace := get (·.workspace)

@[inline] def onWorkspace (f : Workspace → α × Workspace) : Eval α := fun s =>
  let (a, workspace) := f s.workspace
  .ok a { s with workspace }

@[inline] def modifyWorkspace (f : Workspace → Workspace) : Eval Unit := fun s =>
  .ok () { s with workspace := f s.workspace }

def currentId : Eval Nat := onWorkspace (·.current)

def currentBuffer : Eval Buffer := do
  let id ← currentId
  return ((← workspace).buffer? id).getD { id, name := scratchName }

def modifyBuffer (id : Nat) (f : Buffer → Buffer) : Eval Unit := modifyWorkspace (·.modifyBuffer id f)

def modifyCurrent (f : Buffer → Buffer) : Eval Unit := do modifyBuffer (← currentId) f

def onBuffer (id : Nat) (f : Buffer → α × Buffer) : Eval (Option α) := do
  match (← workspace).buffer? id with
  | some b =>
    let (a, b) := f b
    modifyBuffer id fun _ => b
    return some a
  | none => return none

def onCurrent (f : Buffer → α × Buffer) : Eval α := do
  let id ← currentId
  let (a, b) := f (← currentBuffer)
  modifyBuffer id fun _ => b
  return a

/-- Run a step with a buffer as the current one, and make the previous one current again
afterwards if it is still alive, however the step ended. -/
def withBuffer (target : Option Nat) (m : Eval α) : Eval α := do
  let saved ← currentId
  match target with
  | some id => modifyWorkspace (·.setCurrent id)
  | none => pure ()
  m.ensuring fun s => { s with workspace := s.workspace.setCurrent saved }

end Eval

end EditorLisp
