import EditorLisp.Primitives.Arithmetic

/-!
# Places

A place form names something that can be read and written: a variable, a part of a pair
or an element of a list or vector.  A place is resolved once, evaluating its subforms a
single time, and the forms that read and then write it touch what was resolved.
-/

namespace EditorLisp.Forms

open Eval

/-- Something that can be read and written. -/
inductive Place where
  | var (name : String)
  | car (cell : Value)
  | cdr (cell : Value)
  /-- An element of a vector. -/
  | slot (vector : Value) (i : Nat)

namespace Place

def outOfRange {α : Type} (seq : Value) (index : Int64) : Eval α :=
  signal "args-out-of-range" [seq, .int index]

def cell (list : Value) (index : Int64) : Eval Place := do
  if index < 0 then outOfRange list index
  else
    let tail := (← store).after index.toInt.toNat list
    if tail.isCons then return .car tail else outOfRange list index

def element (seq : Value) (index : Int64) : Eval Place := do
  match (← store).items? seq with
  | some items =>
    if 0 ≤ index.toInt ∧ index.toInt.toNat < items.size then return .slot seq index.toInt.toNat
    else outOfRange seq index
  | none => wrongType "arrayp" seq

def pair (v : Value) : Eval Value := if v.isCons then pure v else wrongType "consp" v

/-- Complain about a form that names no place. -/
def bad {α : Type} (what : String) (form : Value) : Eval α := do
  error (what ++ " place: " ++ (← store).print form)

/-- Resolve a place form.  A call of an expander is expanded and resolved again. -/
def resolve (I : Interp) (frame : Nat) : Nat → Value → Eval Place
  | 0, _ => unfinished
  | fuel + 1, form => do
    match form.symbolName? with
    | some name => return .var name
    | none =>
      let s ← store
      let args := (s.list? (s.cdr form)).getD []
      let part (i : Nat) : Eval Value :=
        match args[i]? with
        | some sub => I.eval sub frame
        | none => bad "Bad" form
      match (s.car form).symbolName? with
      | none => bad "Bad" form
      | some "car" => return .car (← pair (← part 0))
      | some "cdr" => return .cdr (← pair (← part 0))
      | some "aref" =>
        let seq ← part 0
        let index ← integer (← part 1)
        element seq index
      | some "elt" =>
        let seq ← part 0
        let index ← integer (← part 1)
        match seq with
        | .vector _ => element seq index
        | list => cell list index
      | some "nth" =>
        let index ← integer (← part 0)
        let list ← part 1
        cell list index
      | some _ =>
        match ← expandOnce I form with
        | some expansion => resolve I frame fuel expansion
        | none => bad "Unsupported" form

def ofForm (I : Interp) (frame : Nat) (form : Value) : Eval Place := resolve I frame I.fuel form

def read (place : Place) (frame : Nat) : Eval Value := do
  match place with
  | .var name =>
    match (← session).valueIn? name frame with
    | some value => return value
    | none => signal "void-variable" [.ofName name]
  | .car cell => Eval.car cell
  | .cdr cell => Eval.cdr cell
  | .slot vector i => return (((← store).items? vector).getD #[]).getD i .nil

def write (place : Place) (frame : Nat) (value : Value) : Eval Unit :=
  match place with
  | .var name => setVariable name value frame
  | .car cell => modifyStore (·.setCar cell value)
  | .cdr cell => modifyStore (·.setCdr cell value)
  | .slot vector i => modifyStore (·.setItem vector i value)

end Place

def setfPairs (I : Interp) (frame : Nat) : Value → List Value → Eval Value
  | _, target :: form :: rest => do
    let place ← Place.ofForm I frame target
    let value ← I.eval form frame
    place.write frame value
    setfPairs I frame value rest
  | last, _ => pure last

/-- `(setf PLACE FORM ...)`. -/
def setf : SpecialForm := fun I forms frame =>
  if forms.length % 2 = 1 then wrongArity "setf" (forms.length + 1) none forms.length
  else setfPairs I frame .nil forms

/-- `(push ITEM PLACE)`. -/
def push : SpecialForm := fun I forms frame => do
  formArity "push" forms 2 (some 2)
  let item ← I.eval (forms.getD 0 .nil) frame
  let place ← Place.ofForm I frame (forms.getD 1 .nil)
  let list ← cons item (← place.read frame)
  place.write frame list
  return list

/-- `(pop PLACE)`. -/
def pop : SpecialForm := fun I forms frame => do
  formArity "pop" forms 1 (some 1)
  let place ← Place.ofForm I frame (forms.getD 0 .nil)
  let list ← place.read frame
  match list with
  | .nil => return .nil
  | .cons _ =>
    place.write frame (← cdr list)
    car list
  | other => wrongType "listp" other

/-- `(incf PLACE [DELTA])` and `(decf PLACE [DELTA])`. -/
def step (name : String) (combine : List Value → Eval Value) : SpecialForm := fun I forms frame => do
  formArity name forms 1 (some 2)
  let place ← Place.ofForm I frame (forms.getD 0 .nil)
  let delta ← match forms[1]? with
    | some form => I.eval form frame
    | none => pure (.int 1)
  let old ← place.read frame
  let new ← combine [old, delta]
  place.write frame new
  return new

/-- `(cl-rotatef PLACE...)`: each place gets the value of the next one, the last that of
the first. -/
def rotatef : SpecialForm := fun I forms frame => do
  let places ← forms.mapM (Place.ofForm I frame)
  let values ← places.mapM (·.read frame)
  let rotated := values.drop 1 ++ values.take 1
  if 1 < values.length then
    (places.zip rotated).forM fun (place, value) => place.write frame value
  return .nil

end EditorLisp.Forms
