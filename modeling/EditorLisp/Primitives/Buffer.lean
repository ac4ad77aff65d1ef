import EditorLisp.Primitives.Editing

/-!
# Buffers as objects

Primitives that find, make, name and kill buffers, and those on variables local to a
buffer.
-/

namespace EditorLisp.Primitives

open Eval

/-! ## Finding and making -/

/-- `(current-buffer)`. -/
def currentBufferOf : Primitive := fun _ args => do
  exactly "current-buffer" args 0
  return .buffer (← currentId)

def setBuffer : Primitive := unary "set-buffer" fun v => do
  let id ← liveBuffer v
  modifyWorkspace (·.setCurrent id)
  return .buffer id

/-- `(buffer-name &optional BUFFER)`. -/
def bufferName : Primitive := fun _ args => do
  atMost "buffer-name" args 1
  let id ← match arg args 0 with
    | .nil => currentId
    | .buffer id => pure id
    | other => wrongType "bufferp" other
  match (← workspace).bufferName? id with
  | some name => text name
  | none => return .nil

def getBuffer : Primitive := unary "get-buffer" fun v => do
  match v with
  | .buffer id => return .buffer id
  | .str _ name => return (((← workspace).find? name).map Value.buffer).getD .nil
  | other => wrongType "stringp" other

def getBufferCreate : Primitive := fun _ args => do
  between "get-buffer-create" args 1 2
  match arg args 0 with
  | .buffer id => return .buffer id
  | other =>
    let name ← string other
    return .buffer (← onWorkspace (·.getOrCreate name))

def generateNewBuffer : Primitive := fun _ args => do
  between "generate-new-buffer" args 1 2
  let base ← string (arg args 0)
  return .buffer (← onWorkspace (·.generate base))

def generateNewBufferName : Primitive := fun _ args => do
  between "generate-new-buffer-name" args 1 2
  let base ← string (arg args 0)
  text ((← workspace).newName base)

def bufferList : Primitive := fun _ args => do
  atMost "buffer-list" args 1
  list ((← workspace).bufferList.map Value.buffer)

def bufferLiveP : Primitive := unary "buffer-live-p" fun v => do
  match v with
  | .buffer id => bool ((← workspace).isLive id)
  | _ => return .nil

/-- `(kill-buffer &optional BUFFER)`; a dead buffer is passed over. -/
def killBuffer : Primitive := fun _ args => do
  atMost "kill-buffer" args 1
  let id ← match arg args 0 with
    | .buffer id => pure id
    | other => liveBuffer other
  match (← workspace).kill? id with
  | some w =>
    modifyWorkspace fun _ => w
    return .t
  | none => return .nil

/-- `(bury-buffer &optional BUFFER)`. -/
def buryBuffer : Primitive := fun _ args => do
  atMost "bury-buffer" args 1
  let id ← liveBuffer (arg args 0)
  modifyWorkspace (·.bury id)
  return .nil

/-- Show a buffer, made if there is none of the name, in the selected window. -/
def showBuffer (v : Value) : Eval Nat := do
  match v with
  | .str _ name => onWorkspace (·.switchTo name)
  | other =>
    let id ← liveBuffer other
    modifyWorkspace (·.setCurrent id)
    return id

def switchToBuffer : Primitive := fun _ args => do
  between "switch-to-buffer" args 1 3
  return .buffer (← showBuffer (arg args 0))

/-- `(display-buffer BUFFER)`: the answer is the window. -/
def displayBuffer : Primitive := fun _ args => do
  between "display-buffer" args 1 3
  let _ ← showBuffer (arg args 0)
  return .window (← onWorkspace (·.ensureSelected))

/-- `(rename-buffer NAME &optional UNIQUE)`. -/
def renameBuffer : Primitive := fun _ args => do
  between "rename-buffer" args 1 2
  let base ← string (arg args 0)
  let id ← currentId
  let w ← workspace
  let name := if flag args 1 then w.newName base else base
  match w.rename? id name with
  | some w =>
    modifyWorkspace fun _ => w
    text name
  | none => error ("Buffer name `" ++ name ++ "' is in use")

/-- `(buffer-modified-p &optional BUFFER)`. -/
def bufferModifiedP : Primitive := fun _ args => do
  atMost "buffer-modified-p" args 1
  let id ← liveBuffer (arg args 0)
  bool (((← workspace).buffer? id).any Buffer.modified)

def setBufferModifiedP : Primitive := unary "set-buffer-modified-p" fun v => do
  modifyCurrent fun b => { b with modified := v.isTrue }
  return v

/-! ## Local variables -/

def makeLocalVariable : Primitive := unary "make-local-variable" fun v => do
  let name ← symbolName v
  let initial := ((← session).globals.get? name).getD .nil
  modifyCurrent fun b => if b.locals.contains name then b else b.setLocal name initial
  return v

def makeVariableBufferLocal : Primitive := unary "make-variable-buffer-local" fun v => do
  let name ← symbolName v
  modify fun s =>
    let s := if s.globals.contains name then s else s.setGlobal name .nil
    let s := s.declareSpecial name
    { s with autoLocal := s.autoLocal.insert name () }
  return v

def killLocalVariable : Primitive := unary "kill-local-variable" fun v => do
  let name ← symbolName v
  modifyCurrent (·.killLocal name)
  return v

def bufferLocalValue : Primitive := binary "buffer-local-value" fun v designator => do
  let name ← symbolName v
  let id ← liveBuffer designator
  let s ← session
  match ((s.workspace.buffer? id).bind (·.local? name)).or (s.globals.get? name) with
  | some value => return value
  | none => signal "void-variable" [v]

/-- `(local-variable-p SYMBOL &optional BUFFER)`. -/
def localVariableP : Primitive := fun _ args => do
  between "local-variable-p" args 1 2
  let name ← symbolName (arg args 0)
  let id ← liveBuffer (arg args 1)
  bool (((← workspace).buffer? id).any (·.locals.contains name))

/-- `(buffer-local-variables &optional BUFFER)`. -/
def bufferLocalVariables : Primitive := fun _ args => do
  atMost "buffer-local-variables" args 1
  let id ← liveBuffer (arg args 0)
  match (← workspace).buffer? id with
  | none => return .nil
  | some b => list (← b.locals.entries.mapM fun (name, value) => cons (.ofName name) value)

def buffers : List (String × Primitive) :=
  [("current-buffer", currentBufferOf), ("set-buffer", setBuffer), ("buffer-name", bufferName),
   ("get-buffer", getBuffer), ("get-buffer-create", getBufferCreate),
   ("generate-new-buffer", generateNewBuffer),
   ("generate-new-buffer-name", generateNewBufferName), ("buffer-list", bufferList),
   ("buffer-live-p", bufferLiveP), ("kill-buffer", killBuffer), ("bury-buffer", buryBuffer),
   ("switch-to-buffer", switchToBuffer), ("pop-to-buffer", switchToBuffer),
   ("pop-to-buffer-same-window", switchToBuffer), ("display-buffer", displayBuffer),
   ("rename-buffer", renameBuffer), ("buffer-modified-p", bufferModifiedP),
   ("set-buffer-modified-p", setBufferModifiedP),
   ("restore-buffer-modified-p", setBufferModifiedP),
   ("make-local-variable", makeLocalVariable),
   ("make-variable-buffer-local", makeVariableBufferLocal),
   ("kill-local-variable", killLocalVariable), ("buffer-local-value", bufferLocalValue),
   ("local-variable-p", localVariableP), ("buffer-local-variables", bufferLocalVariables)]

end EditorLisp.Primitives
