import EditorLisp.Primitives.List
import EditorLisp.Text.Offset

/-!
# Vectors and sequences

Primitives that take a list, a vector or a string alike, and those on vectors alone.
-/

namespace EditorLisp.Primitives

open Eval

def isVector : Value → Bool
  | .vector _ => true
  | _ => false

def isArray (v : Value) : Bool := isVector v || v.isString

def length : Primitive := unary "length" fun v => do
  match v with
  | .nil => return .int 0
  | .cons _ => return .ofNat (← listLength v)
  | .vector _ => return .ofNat (((← store).items? v).getD #[]).size
  | .str _ s => return .ofNat s.length
  | other => wrongType "sequencep" other

/-- A copy of a sequence in reverse order. -/
def reversed (v : Value) : Eval Value := do
  match v with
  | .vector _ => vector (← sequenceElements v).reverse
  | .str _ s => text (String.ofList s.toList.reverse)
  | other => list (← properList other).reverse

/-- `(nreverse SEQUENCE)`: pairs and vectors are turned around in place. -/
def nreverse : Primitive := unary "nreverse" fun v => do
  match v with
  | .vector _ =>
    modifyStore fun s => s.setItems v ((s.items? v).getD #[]).reverse
    return v
  | .cons _ => reversePairs (2 * (← store).pairs.size + 2) .nil v
  | other => reversed other

/-- A copy of a sequence without the elements that equal a value. -/
def removal (name : String) (same : Store → Value → Value → Bool) : Primitive :=
  binary name fun item v => do
    match v with
    | .vector _ =>
      let items ← sequenceElements v
      let s ← store
      vector (items.filter fun x => !same s item x)
    | .str _ t =>
      let s ← store
      text (String.ofList (t.toList.filter fun c => !same s item (.ofNat c.toNat)))
    | other =>
      let items ← properList other
      let s ← store
      list (items.filter fun x => !same s item x)

def makeVector : Primitive := binary "make-vector" fun n item => do
  vector (List.replicate (← elementCount n) item)

def badIndex {α : Type} (v : Value) (index : Int64) : Eval α :=
  signal "args-out-of-range" [v, .int index]

def aref (v i : Value) : Eval Value := do
  let index ← integer i
  if index.toInt < 0 then badIndex v index
  else
    let found ← match v with
      | .vector _ => pure (((← store).items? v).getD #[])[index.toInt.toNat]?
      | .str _ s => pure ((Text.charAt? s index.toInt.toNat).map fun c => .ofNat c.toNat)
      | other => wrongType "arrayp" other
    match found with
    | some item => return item
    | none => badIndex v index

def aset : Primitive := fun _ args => do
  exactly "aset" args 3
  let v := arg args 0
  let index ← integer (arg args 1)
  if index.toInt < 0 then badIndex v index
  else
    match (← store).items? v with
    | some items =>
      if index.toInt.toNat < items.size then
        modifyStore (·.setItem v index.toInt.toNat (arg args 2))
        return arg args 2
      else badIndex v index
    | none => wrongType "vectorp" v

def elt : Primitive := binary "elt" fun v i => do
  match v with
  | .vector _ | .str _ _ => aref v i
  | _ =>
    let index ← integer i
    let length ← listLength v
    if index.toInt < 0 ∨ (length : Int) ≤ index.toInt then badIndex v index else nth index v

/-- `(copy-sequence SEQUENCE)`. -/
def copySequence : Primitive := unary "copy-sequence" fun v => do
  match v with
  | .vector _ => vector (← sequenceElements v)
  | .str _ s => text s
  | other => list (← properList other)

/-- The depth below which trees are shared rather than copied. -/
def copyDepth : Nat := 4096

def copyTreeFor : Nat → Value → Eval Value
  | 0, v => pure v
  | room + 1, v => do
    if v.isCons then
      let head ← copyTreeFor room (← car v)
      let tail ← copyTreeFor room (← cdr v)
      cons head tail
    else return v

/-- `(copy-tree TREE)`. -/
def copyTree : Primitive := fun _ args => do
  between "copy-tree" args 1 2
  copyTreeFor copyDepth (arg args 0)

def fillarray : Primitive := binary "fillarray" fun v item => do
  match v with
  | .vector _ =>
    modifyStore fun s => s.setItems v (((s.items? v).getD #[]).map fun _ => item)
    return v
  | other => wrongType "vectorp" other

def sequences : List (String × Primitive) :=
  [("length", length), ("safe-length", length),
   ("reverse", unary "reverse" reversed), ("nreverse", nreverse),
   ("delq", removal "delq" fun _ a b => a.same b),
   ("delete", removal "delete" fun s a b => s.equal a b),
   ("remove", removal "remove" fun s a b => s.equal a b),
   ("remq", removal "remq" fun _ a b => a.same b),
   ("make-vector", makeVector), ("vector", fun _ args => vector args),
   ("aref", binary "aref" aref), ("aset", aset), ("elt", elt),
   ("vconcat", fun _ args => do vector (← gather args)),
   ("copy-sequence", copySequence), ("copy-tree", copyTree), ("fillarray", fillarray)]

end EditorLisp.Primitives
