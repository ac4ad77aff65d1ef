import EditorLisp.Primitives.List

/-!
# Keymaps as objects

Primitives that make keymaps, bind keys in them, and ask the keymaps in force: that of the
current buffer first, then the global one.
-/

namespace EditorLisp.Primitives

open Eval

def isKeymap : Value → Bool
  | .keymap _ => true
  | _ => false

def requireKeymap (v : Value) : Eval Unit := if isKeymap v then pure () else wrongType "keymapp" v

def requireKey (v : Value) : Eval String := do
  match (← store).keySpec? v with
  | some key => return key
  | none => wrongType "arrayp" v

def newKeymap (map : Keymap) : Eval Value := alloc (·.addKeymap map)

/-- Bind a key in a keymap; the answer is the binding. -/
def bindKey (map : Value) (key : String) (binding : Value) : Eval Value := do
  requireKeymap map
  modifyStore (·.modifyKeymap map (·.define key binding))
  return binding

def makeKeymap (name : String) (map : Keymap) : Primitive := fun _ args => do
  atMost name args 1
  newKeymap map

/-- `(define-key MAP KEY BINDING)`. -/
def defineKey : Primitive := fun _ args => do
  between "define-key" args 3 4
  let key ← requireKey (arg args 1)
  bindKey (arg args 0) key (arg args 2)

/-- `(keymap-set MAP KEY BINDING)`. -/
def keymapSet : Primitive := fun _ args => do
  exactly "keymap-set" args 3
  let key := Key.describe (← string (arg args 1))
  bindKey (arg args 0) key (arg args 2)

def setKeymapParent : Primitive := binary "set-keymap-parent" fun map parent => do
  if parent.isTrue then requireKeymap parent
  requireKeymap map
  let parent? := if parent.isTrue then some parent else none
  modifyStore (·.modifyKeymap map fun m => { m with parent := parent? })
  return parent

def keymapParent : Primitive := unary "keymap-parent" fun map => do
  requireKeymap map
  return (((← store).keymap? map).bind Keymap.parent).getD .nil

def suppressKeymap : Primitive := fun _ args => do
  between "suppress-keymap" args 1 2
  requireKeymap (arg args 0)
  return .nil

def lookupKey : Primitive := fun _ args => do
  between "lookup-key" args 2 3
  requireKeymap (arg args 0)
  let key ← requireKey (arg args 1)
  return ((← store).lookupKey? (arg args 0) key).getD .nil

/-! ## The keymaps in force -/

def currentGlobalMap : Primitive := fun _ args => do
  exactly "current-global-map" args 0
  get (·.globalMap)

def currentLocalMap : Primitive := fun _ args => do
  exactly "current-local-map" args 0
  return (← currentBuffer).localMap.getD .nil

def installLocalMap (map : Value) : Eval Unit := do
  if map.isTrue then requireKeymap map
  modifyCurrent fun b => { b with localMap := if map.isTrue then some map else none }

def useLocalMap : Primitive := unary "use-local-map" fun map => do
  installLocalMap map
  return .nil

def useGlobalMap : Primitive := unary "use-global-map" fun map => do
  requireKeymap map
  modify fun s => { s with globalMap := map }
  return .nil

/-- `(global-set-key KEY BINDING)`. -/
def globalSetKey : Primitive := binary "global-set-key" fun key binding => do
  let key ← requireKey key
  bindKey (← session).globalMap key binding

/-- The keymap of the current buffer, made if it has none. -/
def ensureLocalMap : Eval Value := do
  match (← currentBuffer).localMap with
  | some map => return map
  | none =>
    let map ← newKeymap {}
    modifyCurrent fun b => { b with localMap := some map }
    return map

/-- `(local-set-key KEY BINDING)`. -/
def localSetKey : Primitive := binary "local-set-key" fun key binding => do
  let key ← requireKey key
  bindKey (← ensureLocalMap) key binding

def activeBinding? (key : String) : Eval (Option Value) := do
  let map := (← currentBuffer).localMap
  let s ← session
  return (map.bind fun m => s.store.lookupKey? m key).or (s.store.lookupKey? s.globalMap key)

def keymapLookup : Primitive := fun _ args => do
  between "keymap-lookup" args 2 4
  let key := Key.describe (← string (arg args 1))
  match arg args 0 with
  | .nil => return (← activeBinding? key).getD .nil
  | map =>
    requireKeymap map
    return ((← store).lookupKey? map key).getD .nil

def keyBinding : Primitive := fun _ args => do
  between "key-binding" args 1 4
  let key ← requireKey (arg args 0)
  return (← activeBinding? key).getD .nil

def keymaps : List (String × Primitive) :=
  [("make-keymap", makeKeymap "make-keymap" .full),
   ("make-sparse-keymap", makeKeymap "make-sparse-keymap" {}),
   ("keymapp", predicate "keymapp" isKeymap), ("define-key", defineKey),
   ("keymap-set", keymapSet),
   ("kbd", unary "kbd" fun v => do text (Key.describe (← string v))),
   ("set-keymap-parent", setKeymapParent), ("keymap-parent", keymapParent),
   ("suppress-keymap", suppressKeymap), ("lookup-key", lookupKey),
   ("current-global-map", currentGlobalMap), ("current-local-map", currentLocalMap),
   ("use-local-map", useLocalMap), ("use-global-map", useGlobalMap),
   ("global-set-key", globalSetKey), ("keymap-global-set", globalSetKey),
   ("local-set-key", localSetKey), ("keymap-local-set", localSetKey),
   ("keymap-lookup", keymapLookup), ("key-binding", keyBinding)]

end EditorLisp.Primitives
