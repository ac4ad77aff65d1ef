import EditorLisp.Evaluation.Function

/-!
# Quotation

Quoted data stands for itself, except that lists written with brackets, which the source
expander turned into calls of `vector-literal`, become vectors.  Data without such lists
keeps its identity.  A backquoted template is copied with its unquoted parts evaluated.
-/

namespace EditorLisp.Forms

open Eval

def vectorMark : String := "vector-literal"

/-- The depth to which quoted data is searched for vectors. -/
def literalDepth : Nat := 512

/-- Whether data holds a list that stands for a vector, looking a bounded number of levels
deep. -/
def holdsLiteral (s : Store) : Nat → Value → Bool
  | 0, _ => false
  | fuel + 1, v =>
    match v with
    | .cons _ =>
      (s.car v).isNamed vectorMark || holdsLiteral s fuel (s.car v) || holdsLiteral s fuel (s.cdr v)
    | .vector _ => ((s.items? v).getD #[]).toList.any (holdsLiteral s fuel)
    | _ => false

/-- Apply a store transformer to the elements of a list in order. -/
def mapStore (f : Value → Store → Value × Store) : List Value → Store → List Value × Store
  | [], s => ([], s)
  | v :: rest, s =>
    let (v, s) := f v s
    let (rest, s) := mapStore f rest s
    (v :: rest, s)

/-- Copy data with vectors built, a bounded number of levels deep. -/
def build : Nat → Value → Store → Value × Store
  | 0, v, s => (v, s)
  | fuel + 1, v, s =>
    match v with
    | .cons _ =>
      if (s.car v).isNamed vectorMark then
        let (items, s) := mapStore (build fuel) (s.elements (s.cdr v)) s
        s.vector items.toArray
      else
        let (car, s) := build fuel (s.car v) s
        let (cdr, s) := build fuel (s.cdr v) s
        s.cons car cdr
    | .vector _ =>
      let (items, s) := mapStore (build fuel) ((s.items? v).getD #[]).toList s
      s.vector items.toArray
    | v => (v, s)

/-- The value of quoted data. -/
def literal (v : Value) : Eval Value := do
  match v with
  | .cons _ | .vector _ =>
    if holdsLiteral (← store) (literalDepth + 1) v then alloc (build (literalDepth + 1) v)
    else pure v
  | v => pure v

def quote : SpecialForm := fun _ forms _ => do
  formArity "quote" forms 1 (some 1)
  literal (forms.getD 0 .nil)

/-- `(function F)`: a lambda list becomes a function, anything else stands for itself. -/
def function : SpecialForm := fun _ forms frame => do
  formArity "function" forms 1 (some 1)
  let form := forms.getD 0 .nil
  if ← headIs form "lambda" then makeClosure (← cdr form) frame none else pure form

/-- `(vector-literal ITEM...)`: a vector of quoted items. -/
def vectorLiteral : SpecialForm := fun _ forms _ => do
  vector (← forms.mapM literal)

/-- What is left of a template: data in the store, or items that were taken out of a vector. -/
inductive Remainder where
  | data (v : Value)
  | items (vs : List Value)

namespace Remainder

def isPair : Remainder → Bool
  | .data v => v.isCons
  | .items vs => !vs.isEmpty

/-- The element at the front; `nil` where there is none. -/
def car (s : Store) : Remainder → Value
  | .data v => s.car v
  | .items vs => vs.headD .nil

/-- What is left behind the element at the front. -/
def cdr (s : Store) : Remainder → Remainder
  | .data v => .data (s.cdr v)
  | .items vs => .items vs.tail

/-- The data that are left where there is no element at the front. -/
def last : Remainder → Value
  | .data v => v
  | .items _ => .nil

end Remainder

/-- A copy of a template with its forms replaced.  No form can reach the objects of the copy
before it is complete, so they are made then. -/
inductive Copy where
  | leaf (v : Value)
  | cons (car cdr : Copy)
  | vector (items : List Copy)

namespace Copy

/-- A copy of a list with a tail. -/
def listWithTail (items : List Copy) (tail : Copy) : Copy := items.foldr cons tail

/-- The elements of a copy of a proper list, which may end in a list of the store. -/
def list? (s : Store) : Copy → Option (List Copy)
  | .leaf v => (s.list? v).map (·.map leaf)
  | .cons car cdr => (cdr.list? s).map (car :: ·)
  | .vector _ => none

mutual

/-- Make the objects of a copy. -/
def build : Copy → Store → Value × Store
  | .leaf v, s => (v, s)
  | .cons car cdr, s =>
    let (car, s) := build car s
    let (cdr, s) := build cdr s
    s.cons car cdr
  | .vector items, s =>
    let (items, s) := buildAll items s
    s.vector items.toArray

/-- Make the objects of copies in order. -/
def buildAll : List Copy → Store → List Value × Store
  | [], s => ([], s)
  | c :: rest, s =>
    let (v, s) := build c s
    let (rest, s) := buildAll rest s
    (v :: rest, s)

end

end Copy

/-- Fill the elements of a template list, each with `fill`.  The elements filled so far are
given in reverse; `first` tells whether there were none.  A comma in the middle of a list is
a dotted unquote. -/
def fillItems (I : Interp) (fill : Remainder → Eval Copy) (frame depth : Nat) :
    Nat → Bool → List Copy → Remainder → Eval Copy
  | 0, _, _, _ => unfinished
  | fuel + 1, first, items, template =>
    if template.isPair then do
      let item ← get (template.car ·.store)
      if !first && item.isNamed "," then
        return .listWithTail items.reverse (← fill template)
      else if ← (if depth = 1 then headIs item ",@" else pure false) then
        let spliced ← I.eval (← car (← cdr item)) frame
        let more ← sequenceElements spliced
        fillItems I fill frame depth fuel false ((more.map .leaf).reverse ++ items)
          (← get (template.cdr ·.store))
      else
        let filled ← fill (.data item)
        fillItems I fill frame depth fuel false (filled :: items) (← get (template.cdr ·.store))
    else return .listWithTail items.reverse (.leaf template.last)

/-- Fill a backquoted template that is `depth` backquotes deep. -/
def fill (I : Interp) (frame : Nat) : Nat → Nat → Remainder → Eval Copy
  | 0, _, _ => unfinished
  | fuel + 1, depth, template => do
    match template with
    | .data (.vector ref) =>
      let items ← get fun s => (s.store.items? (.vector ref)).getD #[]
      let filled ← fill I frame fuel depth (.items items.toList)
      return .vector (← get fun s => (filled.list? s.store).getD [])
    | template =>
      if template.isPair then
        let head ← get (template.car ·.store)
        let inner ← get fun s => (template.cdr s.store).car s.store
        let marked := fun inner : Copy => Copy.listWithTail [.leaf head, inner] (.leaf .nil)
        if head.isNamed "," || head.isNamed ",@" then
          if depth = 1 then return .leaf (← I.eval inner frame)
          else return marked (← fill I frame fuel (depth - 1) (.data inner))
        else if head.isNamed "`" then
          return marked (← fill I frame fuel (depth + 1) (.data inner))
        else if head.isNamed vectorMark then
          let filled ← fill I frame fuel depth (← get (template.cdr ·.store))
          return .vector (← get fun s => (filled.list? s.store).getD [])
        else fillItems I (fill I frame fuel depth) frame depth I.fuel true [] template
      else return .leaf template.last

/-- A backquoted form. -/
def backquote : SpecialForm := fun I forms frame => do
  formArity "`" forms 1 (some 1)
  let filled ← fill I frame I.fuel 1 (.data (forms.getD 0 .nil))
  alloc filled.build

end EditorLisp.Forms
