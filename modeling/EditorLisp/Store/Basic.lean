import EditorLisp.Keymap
import EditorLisp.Source.Datum

/-!
# The store

Everything with identity and mutable parts lives here: pairs, vectors, functions,
environment frames, keymaps and remembered layouts, each kind in an array of its own.
A handle is an index, and nothing is ever removed, so a handle stays good.

A frame is made after its parent, so parents have smaller indices and every chain of
frames ends.  Lists need not end: walking one stops after as many steps as there are
pairs, and a list that has not ended by then is treated like any other that does not end
in the empty list.
-/

namespace EditorLisp

/-- A pair. -/
structure Pair where
  car : Value
  cdr : Value
deriving Repr, Inhabited

/-- The bindings that one construct introduces, and the frame around it. -/
structure Frame where
  /-- The variables bound here. -/
  vars : Table String Value := {}
  /-- The enclosing frame. -/
  parent : Option Nat := none
deriving Repr, Inhabited

/-- A remembered window layout: the selected window, and for each window the name of the
buffer it showed. -/
structure Layout where
  selected : Nat
  windows : List (Nat × String)
deriving Repr, DecidableEq, Inhabited

/-- The mutable memory of a session. -/
structure Store where
  pairs : Array Pair := #[]
  vectors : Array (Array Value) := #[]
  closures : Array Closure := #[]
  frames : Array Frame := #[{}]
  keymaps : Array Keymap := #[]
  layouts : Array Layout := #[]
  /-- The number that the next string will get. -/
  nextText : Nat := 0
deriving Repr, Inhabited

namespace Store

/-- The frame without parent, present from the start. -/
def rootFrame : Nat := 0

/-! ## Making objects -/

def cons (s : Store) (car cdr : Value) : Value × Store :=
  (.cons s.pairs.size, { s with pairs := s.pairs.push ⟨car, cdr⟩ })

def listWithTail (s : Store) (items : List Value) (tail : Value) : Value × Store :=
  items.reverse.foldl (fun (tail, s) item => s.cons item tail) (tail, s)

def list (s : Store) (items : List Value) : Value × Store := s.listWithTail items .nil

def vector (s : Store) (items : Array Value) : Value × Store :=
  (.vector s.vectors.size, { s with vectors := s.vectors.push items })

def text (s : Store) (text : String) : Value × Store :=
  (.str s.nextText text, { s with nextText := s.nextText + 1 })

def addClosure (s : Store) (c : Closure) : Nat × Store :=
  (s.closures.size, { s with closures := s.closures.push c })

def addKeymap (s : Store) (m : Keymap) : Value × Store :=
  (.keymap s.keymaps.size, { s with keymaps := s.keymaps.push m })

/-- Put a remembered layout into the store. -/
def addLayout (s : Store) (layout : Layout) : Value × Store :=
  (.layout s.layouts.size, { s with layouts := s.layouts.push layout })

/-! ## Pairs and lists -/

/-- The first part of a pair; `nil` for anything else. -/
def car (s : Store) : Value → Value
  | .cons ref => (s.pairs[ref]?).elim .nil Pair.car
  | _ => .nil

/-- The second part of a pair; `nil` for anything else. -/
def cdr (s : Store) : Value → Value
  | .cons ref => (s.pairs[ref]?).elim .nil Pair.cdr
  | _ => .nil

/-- Change the first part of a pair. -/
def setCar (s : Store) (pair item : Value) : Store :=
  match pair with
  | .cons ref => { s with pairs := s.pairs.modify ref fun p => { p with car := item } }
  | _ => s

def setCdr (s : Store) (pair item : Value) : Store :=
  match pair with
  | .cons ref => { s with pairs := s.pairs.modify ref fun p => { p with cdr := item } }
  | _ => s

/-- Walk along a list for a bounded number of pairs, collecting its elements in reverse;
the second part is where the walk stopped. -/
def walk (s : Store) : Nat → Value → List Value → List Value × Value
  | 0, v, items => (items.reverse, v)
  | fuel + 1, v, items =>
    match v with
    | .cons ref =>
      match s.pairs[ref]? with
      | some p => walk s fuel p.cdr (p.car :: items)
      | none => (items.reverse, .nil)
    | v => (items.reverse, v)

/-- The elements of a list and the value after the last pair. -/
def spine (s : Store) (v : Value) : List Value × Value := s.walk (s.pairs.size + 1) v []

/-- The elements of a list up to the first tail that is no pair. -/
def elements (s : Store) (v : Value) : List Value := (s.spine v).1

/-- The elements of a list that ends in the empty list. -/
def list? (s : Store) (v : Value) : Option (List Value) :=
  match s.spine v with
  | (items, .nil) => some items
  | _ => none

/-- What is left of a list after some pairs, or the tail that is no pair where it ends
before. -/
def after (s : Store) : Nat → Value → Value
  | 0, v => v
  | n + 1, v => if v.isCons then s.after n (s.cdr v) else v

/-- The pairs along a list, in order. -/
def cells (s : Store) : Nat → Value → List Value
  | 0, _ => []
  | fuel + 1, v =>
    match v with
    | .cons ref => .cons ref :: cells s fuel (s.cdr v)
    | _ => []

/-- The pairs along a list, each at most once more than the store holds. -/
def spineCells (s : Store) (v : Value) : List Value := s.cells s.pairs.size v

/-! ## Vectors -/

def items? (s : Store) : Value → Option (Array Value)
  | .vector ref => some (s.vectors[ref]?.getD #[])
  | _ => none

def setItem (s : Store) (vector : Value) (i : Nat) (item : Value) : Store :=
  match vector with
  | .vector ref => { s with vectors := s.vectors.modify ref fun items => items.setIfInBounds i item }
  | _ => s

/-- Change all elements of a vector. -/
def setItems (s : Store) (vector : Value) (items : Array Value) : Store :=
  match vector with
  | .vector ref => { s with vectors := s.vectors.setIfInBounds ref items }
  | _ => s

/-! ## Functions, keymaps and layouts -/

/-- The function behind a closure or an expander. -/
def closure? (s : Store) : Value → Option Closure
  | .closure ref | .expander ref => s.closures[ref]?
  | _ => none

/-- The keymap behind a handle. -/
def keymap? (s : Store) : Value → Option Keymap
  | .keymap ref => s.keymaps[ref]?
  | _ => none

def modifyKeymap (s : Store) (map : Value) (f : Keymap → Keymap) : Store :=
  match map with
  | .keymap ref => { s with keymaps := s.keymaps.modify ref f }
  | _ => s

/-- The remembered layout behind a handle. -/
def layout? (s : Store) : Value → Option Layout
  | .layout ref => s.layouts[ref]?
  | _ => none

/-- Look a key up in a keymap and then in its ancestors, of which at most `hops` are
asked. -/
def lookupKeyFrom (s : Store) (key : String) : Nat → Value → Option Value
  | 0, _ => none
  | hops + 1, map =>
    match s.keymap? map with
    | none => none
    | some m =>
      match m.lookup? key with
      | some hit => some hit
      | none =>
        match m.parent with
        | some parent => lookupKeyFrom s key hops parent
        | none => none

/-- Look a key up in a keymap and its ancestors. -/
def lookupKey? (s : Store) (map : Value) (key : String) : Option Value :=
  s.lookupKeyFrom key 65 map

/-- The canonical description of the key that a value names: a string, a character code,
a symbol or a vector of these. -/
def keySpecFrom (s : Store) : Nat → Value → Option String
  | 0, _ => none
  | fuel + 1, v =>
    match v with
    | .str _ text => some (if text.length = 1 then Key.canonical text else text)
    | .int code => Key.ofCode? code.toInt
    | .symbol name => some ("<" ++ name ++ ">")
    | .vector _ =>
      let parts := ((s.items? v).getD #[]).toList.mapM fun item =>
        match item with
        | .symbol name =>
          some (if name = "return" then "RET" else if name = "tab" then "TAB"
            else if name = "escape" then "ESC" else "<" ++ name ++ ">")
        | other => keySpecFrom s fuel other
      parts.map (" ".intercalate ·)
    | _ => none

/-- The canonical description of the key that a value names. -/
def keySpec? (s : Store) (v : Value) : Option String := s.keySpecFrom (s.vectors.size + 1) v

/-! ## Data -/

/-- Enter a datum, giving its pairs and strings an identity. -/
def enter (s : Store) : Datum → Value × Store
  | .nil => (.nil, s)
  | .t => (.t, s)
  | .int n => (.int n, s)
  | .float x => (.float x, s)
  | .symbol name => (.symbol name, s)
  | .keyword name => (.keyword name, s)
  | .str text => s.text text
  | .cons car cdr =>
    let (cdr, s) := s.enter cdr
    let (car, s) := s.enter car
    s.cons car cdr

/-- Enter several data in order. -/
def enterAll (s : Store) : List Datum → List Value × Store
  | [] => ([], s)
  | d :: rest =>
    let (v, s) := s.enter d
    let (vs, s) := s.enterAll rest
    (v :: vs, s)

/-!
## Lexical environments

A frame binds the variables of one construct and falls back on the frame around it.
Functions keep the frame they were made in, so an assignment to a captured variable is
seen by every holder of that frame.
-/

/-- The frame at an index; an index without a frame counts as an empty root. -/
def frame (s : Store) (i : Nat) : Frame := s.frames[i]?.getD {}

def childFrame (s : Store) (parent : Nat) (vars : Table String Value := {}) : Nat × Store :=
  (s.frames.size, { s with frames := s.frames.push ⟨vars, some parent⟩ })

/-- A new frame inside another one, with bindings; the last binding of a name stays. -/
def childFrameWith (s : Store) (parent : Nat) (bindings : List (String × Value)) : Nat × Store :=
  s.childFrame parent (Table.ofList bindings)

/-- Bind a name in a frame, hiding any outer binding. -/
def defineIn (s : Store) (frame : Nat) (name : String) (value : Value) : Store :=
  { s with frames := s.frames.modify frame fun f => { f with vars := f.vars.insert name value } }

def bindsLocally (s : Store) (frame : Nat) (name : String) : Bool :=
  (s.frame frame).vars.contains name

/-- The nearest frame that binds a name, searching at most as many frames as the counter
says. -/
def binderFrom (s : Store) (name : String) : Nat → Nat → Option (Nat × Value)
  | 0, _ => none
  | fuel + 1, i =>
    match s.frames[i]? with
    | none => none
    | some f =>
      match f.vars.get? name with
      | some value => some (i, value)
      | none =>
        match f.parent with
        | some parent => binderFrom s name fuel parent
        | none => none

/-- The nearest frame that binds a name, and the value there.  A frame with index `i` has
at most `i` ancestors. -/
def binder? (s : Store) (frame : Nat) (name : String) : Option (Nat × Value) :=
  s.binderFrom name (frame + 1) frame

/-- The value of a name in a frame or the nearest one around it. -/
def lookupIn? (s : Store) (frame : Nat) (name : String) : Option Value :=
  (s.binder? frame name).map Prod.snd

/-- Overwrite the nearest binding of a name; `none` when no frame binds it. -/
def assignIn? (s : Store) (frame : Nat) (name : String) (value : Value) : Option Store :=
  (s.binder? frame name).map fun (i, _) => s.defineIn i name value

def frameDepthFrom (s : Store) : Nat → Nat → Nat
  | 0, _ => 0
  | fuel + 1, i =>
    match (s.frame i).parent with
    | some parent => frameDepthFrom s fuel parent + 1
    | none => 0

def frameDepth (s : Store) (i : Nat) : Nat := s.frameDepthFrom (i + 1) i

def describeFrame (s : Store) (i : Nat) : String :=
  "#<env depth=" ++ toString (s.frameDepth i) ++ ">"

/-!
## Structural equality

Pairs and vectors are compared part by part and strings by their text.  The comparison
gives up as unequal below a fixed depth, which also bounds it on circular data.
-/

/-- Depth below which two structures count as different. -/
def equalityDepth : Nat := 4096

/-- Compare element by element, for as long as both lists have elements. -/
def allEqual (eq : Value → Value → Bool) : List Value → List Value → Bool
  | a :: as, b :: bs => eq a b && allEqual eq as bs
  | _, _ => true

/-- Compare two values for a bounded number of levels. -/
def equalFor (s : Store) : Nat → Value → Value → Bool
  | 0, _, _ => false
  | fuel + 1, a, b =>
    match a, b with
    | .float x, .float y => x.sameBits y
    | .str _ x, .str _ y => x == y
    | .cons i, .cons j =>
      i == j || (equalFor s fuel (s.car a) (s.car b) && equalFor s fuel (s.cdr a) (s.cdr b))
    | .vector i, .vector j =>
      let as := (s.items? a).getD #[]
      let bs := (s.items? b).getD #[]
      i == j || (as.size == bs.size && allEqual (equalFor s fuel) as.toList bs.toList)
    | a, b => a.same b

def equalAt (s : Store) (depth : Nat) (a b : Value) : Bool :=
  s.equalFor (equalityDepth + 1 - depth) a b

def equal (s : Store) (a b : Value) : Bool := s.equalAt 0 a b

end Store

end EditorLisp
