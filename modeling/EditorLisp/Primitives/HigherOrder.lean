import EditorLisp.Primitives.String

/-!
# Functions of functions

Primitives that apply a function to the elements of a sequence, expand forms, or sort.
-/

namespace EditorLisp.Primitives

open Eval

/-! ## Application -/

def funcall : Primitive := fun I args => do
  atLeast "funcall" args 1
  I.apply (arg args 0) (args.drop 1)

/-- `(apply FUNCTION ARGUMENT... ARGUMENTS)`: the last argument is a list of arguments. -/
def applyList : Primitive := fun I args => do
  atLeast "apply" args 1
  match args with
  | [form] =>
    let spread ← properList (← cdr form)
    I.apply (← car form) spread
  | _ =>
    let spread ← properList (args.getLastD .nil)
    I.apply (arg args 0) ((args.drop 1).dropLast ++ spread)

/-- Apply a function to each of some values and collect what it returns. -/
def mapValues (I : Interp) (function : Value) : List Value → Eval (List Value)
  | [] => pure []
  | item :: rest => do
    let value ← I.apply function [item]
    return value :: (← mapValues I function rest)

def mapSequence (I : Interp) (function seq : Value) : Eval (List Value) := do
  mapValues I function (← sequenceElements seq)

/-- `(mapcar FUNCTION SEQUENCE)`. -/
def mapping (name : String) : Primitive := fun I args => do
  exactly name args 2
  list (← mapSequence I (arg args 0) (arg args 1))

def mapc : Primitive := fun I args => do
  exactly "mapc" args 2
  let _ ← mapSequence I (arg args 0) (arg args 1)
  return arg args 1

/-- `(mapcan FUNCTION SEQUENCE)`: join the lists that a function returns. -/
def mapcan : Primitive := fun I args => do
  exactly "mapcan" args 2
  let results ← mapSequence I (arg args 0) (arg args 1)
  list (← results.mapM fun v => properList v).flatten

/-- `(mapconcat FUNCTION SEQUENCE &optional SEPARATOR)`. -/
def mapconcat : Primitive := fun I args => do
  between "mapconcat" args 2 3
  let separator ← string? (given? args 2)
  let parts ← mapSequence I (arg args 0) (arg args 1)
  text ((separator.getD "").intercalate (← parts.mapM textOf))

def evalForm : Primitive := fun I args => do
  between "eval" args 1 2
  I.eval (arg args 0) Store.rootFrame

/-! ## Expansion -/

/-- Expand a form until its head is no expander. -/
def expandAll (I : Interp) : Nat → Value → Eval Value
  | 0, _ => unfinished
  | fuel + 1, form => do
    match ← expandOnce I form with
    | some expansion => expandAll I fuel expansion
    | none => return form

/-- `(macroexpand-1 FORM)`. -/
def macroexpand1 : Primitive := fun I args => do
  between "macroexpand-1" args 1 2
  return (← expandOnce I (arg args 0)).getD (arg args 0)

/-- `(macroexpand FORM)`. -/
def macroexpand : Primitive := fun I args => do
  between "macroexpand" args 1 2
  expandAll I I.fuel (arg args 0)

/-! ## Sorting -/

/-- Merge two sorted lists; a value of the second one goes first only if it is less.  The
counter is the number of values. -/
def mergeBy (I : Interp) (less : Value) : Nat → List Value → List Value → Eval (List Value)
  | fuel + 1, a :: as, b :: bs => do
    if (← I.apply less [b, a]).isTrue then return b :: (← mergeBy I less fuel (a :: as) bs)
    else return a :: (← mergeBy I less fuel as (b :: bs))
  | _, as, bs => pure (as ++ bs)

/-- Sort by merging halves, keeping equals in order.  The counter bounds the depth. -/
def sortBy (I : Interp) (less : Value) : Nat → List Value → Eval (List Value)
  | 0, items => pure items
  | fuel + 1, items => do
    if items.length ≤ 1 then return items
    else
      let half := items.length / 2
      let left ← sortBy I less fuel (items.take half)
      let right ← sortBy I less fuel (items.drop half)
      mergeBy I less items.length left right

/-- `(sort SEQUENCE LESS)`: a vector is sorted in place. -/
def sort : Primitive := fun I args => do
  atLeast "sort" args 1
  let less : Value := match args.drop 1 with
    | [] | .keyword _ :: _ => .symbol "<"
    | f :: _ => f
  match arg args 0 with
  | .vector ref =>
    let items ← sequenceElements (.vector ref)
    let sorted ← sortBy I less items.length items
    modifyStore (·.setItems (.vector ref) sorted.toArray)
    return .vector ref
  | other =>
    let items ← properList other
    list (← sortBy I less items.length items)

/-! ## Selection -/

/-- The values for which a predicate is true, or false. -/
def selectValues (I : Interp) (test : Value) (keep : Bool) : List Value → Eval (List Value)
  | [] => pure []
  | item :: rest => do
    let hit := (← I.apply test [item]).isTrue
    let others ← selectValues I test keep rest
    return if hit == keep then item :: others else others

/-- Select elements of a sequence; the answer is a sequence of the same kind. -/
def select (I : Interp) (test seq : Value) (keep : Bool) : Eval Value := do
  let items ← selectValues I test keep (← sequenceElements seq)
  match seq with
  | .vector _ => vector items
  | .str _ _ => text (String.ofList (← items.mapM character))
  | _ => list items

/-- The first value for which a predicate is true. -/
def findValue (I : Interp) (test : Value) : List Value → Eval (Option Value)
  | [] => pure none
  | item :: rest => do
    if (← I.apply test [item]).isTrue then return some item else findValue I test rest

/-- `(seq-find TEST SEQUENCE &optional DEFAULT)`. -/
def seqFind : Primitive := fun I args => do
  between "seq-find" args 2 3
  return (← findValue I (arg args 0) (← sequenceElements (arg args 1))).getD (arg args 2)

/-- `(cl-find-if TEST SEQUENCE)`. -/
def clFindIf : Primitive := fun I args => do
  atLeast "cl-find-if" args 2
  return (← findValue I (arg args 0) (← sequenceElements (arg args 1))).getD .nil

def seqRandomElt : Primitive := unary "seq-random-elt" fun v => do
  let items ← sequenceElements v
  if items.isEmpty then error "Sequence cannot be empty"
  else return items.getD (← drawBelow items.length) .nil

/-- Whether some value is equal to another by a test given by the caller. -/
def anyBy (I : Interp) (test item : Value) : List Value → Eval Bool
  | [] => pure false
  | v :: rest => do
    if (← I.apply test [item, v]).isTrue then return true else anyBy I test item rest

/-- `(seq-contains-p SEQUENCE VALUE &optional TEST)`. -/
def seqContainsP : Primitive := fun I args => do
  between "seq-contains-p" args 2 3
  let items ← sequenceElements (arg args 0)
  match given? args 2 with
  | some test => bool (← anyBy I test (arg args 1) items)
  | none =>
    let s ← store
    bool (items.any fun v => s.equal (arg args 1) v)

/-- Combine values from left to right. -/
def reduce (I : Interp) (function : Value) : Value → List Value → Eval Value
  | acc, [] => pure acc
  | acc, item :: rest => do reduce I function (← I.apply function [acc, item]) rest

def seqReduce : Primitive := fun I args => do
  exactly "seq-reduce" args 3
  let items ← sequenceElements (arg args 1)
  reduce I (arg args 0) (arg args 2) items

def clPosition : Primitive := fun _ args => do
  atLeast "cl-position" args 2
  let items ← sequenceElements (arg args 1)
  match items.findIdx? (·.sameNumber (arg args 0)) with
  | some i => return .ofNat i
  | none => return .nil

/-- The first true value that a function returns. -/
def firstTrue (I : Interp) (function : Value) : List Value → Eval Value
  | [] => pure .nil
  | item :: rest => do
    let value ← I.apply function [item]
    if value.isTrue then return value else firstTrue I function rest

def clSome : Primitive := fun I args => do
  exactly "cl-some" args 2
  firstTrue I (arg args 0) (← sequenceElements (arg args 1))

/-- Whether a predicate is true of all values. -/
def allTrue (I : Interp) (test : Value) : List Value → Eval Bool
  | [] => pure true
  | item :: rest => do
    if (← I.apply test [item]).isTrue then allTrue I test rest else return false

/-- `(cl-every TEST SEQUENCE)`. -/
def clEvery : Primitive := fun I args => do
  exactly "cl-every" args 2
  bool (← allTrue I (arg args 0) (← sequenceElements (arg args 1)))

/-- A selection with an exact number of arguments, or with further ones that are
ignored. -/
def selection (name : String) (exact keep : Bool) : Primitive := fun I args => do
  if exact then exactly name args 2 else atLeast name args 2
  select I (arg args 0) (arg args 1) keep

def higherOrder : List (String × Primitive) :=
  [("funcall", funcall), ("apply", applyList), ("mapcar", mapping "mapcar"), ("mapc", mapc),
   ("mapcan", mapcan), ("mapconcat", mapconcat), ("eval", evalForm),
   ("macroexpand-1", macroexpand1), ("macroexpand", macroexpand),
   ("macroexpand-all", macroexpand), ("sort", sort),
   ("seq-find", seqFind), ("seq-filter", selection "seq-filter" true true),
   ("seq-remove", selection "seq-remove" true false), ("seq-random-elt", seqRandomElt),
   ("seq-contains-p", seqContainsP), ("seq-map", mapping "seq-map"), ("seq-reduce", seqReduce),
   ("cl-remove-if", selection "cl-remove-if" false false),
   ("cl-remove-if-not", selection "cl-remove-if-not" false true),
   ("cl-find-if", clFindIf), ("cl-position", clPosition), ("cl-some", clSome),
   ("cl-every", clEvery)]

end EditorLisp.Primitives
