import EditorLisp.Primitives.Arithmetic
import EditorLisp.Store.Basic

/-!
# Pairs, lists and property lists

Primitives on pairs and on the lists built from them.  Those that change a list in place
follow its pairs one at a time, since a change may redirect the walk; a walk is bounded by
the number of pairs in the store.
-/

namespace EditorLisp.Primitives

open Eval

def unary (name : String) (f : Value → Eval Value) : Primitive := fun _ args => do
  exactly name args 1
  f (arg args 0)

def binary (name : String) (f : Value → Value → Eval Value) : Primitive := fun _ args => do
  exactly name args 2
  f (arg args 0) (arg args 1)

/-! ## Pairs -/

/-- The first part of a pair, or of the empty list. -/
def carOf (v : Value) : Eval Value := if v.isList then car v else wrongType "listp" v

/-- The second part of a pair, or of the empty list. -/
def cdrOf (v : Value) : Eval Value := if v.isList then cdr v else wrongType "listp" v

def setcar : Primitive := binary "setcar" fun pair item => do
  if pair.isCons then
    modifyStore (·.setCar pair item)
    return item
  else wrongType "consp" pair

def setcdr : Primitive := binary "setcdr" fun pair item => do
  if pair.isCons then
    modifyStore (·.setCdr pair item)
    return item
  else wrongType "consp" pair

/-! ## Making lists -/

def makeList : Primitive := binary "make-list" fun n item => do
  list (List.replicate (← elementCount n) item)

def gather : List Value → Eval (List Value)
  | [] => pure []
  | seq :: rest => do
    let items ← sequenceElements seq
    return items ++ (← gather rest)

/-- `(append SEQUENCE... TAIL)`: all but the last argument are copied. -/
def append : Primitive := fun _ args => do
  match args.getLast? with
  | none => return .nil
  | some last =>
    let items ← gather args.dropLast
    let tail ← match last with
      | .vector _ | .str _ _ => do list (← sequenceElements last)
      | other => pure other
    listWithTail items tail

/-- Join lists in place; `last` is the last pair of the result so far, if it has one. -/
def joinLists (result : Value) (last : Option Value) : List Value → Eval Value
  | [] => pure result
  | v :: rest => do
    if v.isNil then joinLists result last rest
    else if !v.isCons && !rest.isEmpty then wrongType "consp" v
    else
      let result ← match last with
        | some pair => do
          modifyStore (·.setCdr pair v)
          pure result
        | none => pure v
      let end? ← get fun s => (s.store.spineCells v).getLast?
      joinLists result (end?.or last) rest

def nconc : Primitive := fun _ args => joinLists .nil none args

/-- Integers from a start in steps, while a test holds and the next one fits. -/
def countInts (inside : Int64 → Bool) (step : Int64) : Nat → Int64 → List Value → List Value
  | 0, _, out => out.reverse
  | fuel + 1, x, out =>
    if inside x then
      match Number.add? x step with
      | some next => countInts inside step fuel next (.int x :: out)
      | none => (Value.int x :: out).reverse
    else out.reverse

/-- The doubles `start + n * step` for `n = 0, 1, …` while a test holds. -/
def countFloats (inside : Float → Bool) (start step : Float) :
    Nat → Float → List Value → Option (List Value)
  | 0, _, _ => none
  | fuel + 1, n, out =>
    let x := start + n * step
    if inside x then countFloats inside start step fuel (n + 1.0) (.float x :: out)
    else some out.reverse

/-- `(number-sequence FROM &optional TO STEP)`. -/
def numberSequence : Primitive := fun I args => do
  between "number-sequence" args 1 3
  let first := arg args 0
  match given? args 1 with
  | none => list [first]
  | some last =>
    let step? := given? args 2
    if hasFloat (first :: last :: step?.toList) then
      let start := (← number first).value
      let stop := (← number last).value
      let step ← match step? with
        | some v => pure (← number v).value
        | none => pure 1.0
      if step == 0.0 then error "The increment can not be zero"
      else
        let outside (x : Float) : Bool := (step > 0.0 && x > stop) || (step < 0.0 && x < stop)
        match countFloats (!outside ·) start step I.fuel 0.0 [] with
        | some items => list items
        | none => unfinished
    else
      let start ← integer first
      let stop ← integer last
      let step ← integerOr 1 step?
      if step == 0 then error "The increment can not be zero"
      else
        let inside (x : Int64) : Bool := if 0 < step then x ≤ stop else stop ≤ x
        let room := ((stop.toInt - start.toInt) / step.toInt).toNat + 1
        list (countInts inside step room start [])

/-! ## Taking lists apart -/

def listLength (v : Value) : Eval Nat := do return (← properList v).length

/-- Go along a list by some pairs, but not past its end.  What is no list cannot be left. -/
def drop : Nat → Value → Eval Value
  | 0, v => pure v
  | _, .nil => pure .nil
  | n + 1, v => do drop n (← cdrOf v)

/-- The element at an index; a negative index counts as zero. -/
def nth (n : Int64) (v : Value) : Eval Value := do carOf (← drop n.toInt.toNat v)

/-- `(last LIST &optional N)`. -/
def last : Primitive := fun _ args => do
  between "last" args 1 2
  let n ← naturalOr 1 (given? args 1)
  let length ← listLength (arg args 0)
  drop (length - n) (arg args 0)

/-- `(butlast LIST &optional N)`. -/
def butlast : Primitive := fun _ args => do
  between "butlast" args 1 2
  let n ← naturalOr 1 (given? args 1)
  let items ← properList (arg args 0)
  list (items.take (items.length - n))

def reversePairs : Nat → Value → Value → Eval Value
  | 0, behind, _ => pure behind
  | fuel + 1, behind, v => do
    if v.isCons then
      let next ← cdr v
      modifyStore (·.setCdr v behind)
      reversePairs fuel v next
    else return behind

/-! ## Searching lists -/

/-- The first tail of a list whose head passes a test, and otherwise where the walk
ended. -/
def findTail (s : Store) (test : Value → Bool) : Nat → Value → Except Value Value
  | 0, v => .error v
  | fuel + 1, v =>
    if v.isCons then
      if test (s.car v) then .ok v else findTail s test fuel (s.cdr v)
    else .error v

/-- A membership test that returns the tail found. -/
def membership (name : String) (same : Store → Value → Value → Bool) : Primitive :=
  binary name fun item v => do
    let s ← store
    match findTail s (same s item) (s.pairs.size + 1) v with
    | .ok tail => return tail
    | .error .nil => return .nil
    | .error _ => wrongType "listp" v

/-- The first pair in a list of pairs that passes a test. -/
def findEntry (s : Store) (test : Value → Bool) (v : Value) : Value :=
  ((s.elements v).find? fun entry => entry.isCons && test entry).getD .nil

def assq (key v : Value) : Eval Value := do
  let s ← store
  return findEntry s (fun entry => (s.car entry).same key) v

def rassq (item v : Value) : Eval Value := do
  let s ← store
  return findEntry s (fun entry => (s.cdr entry).same item) v

/-- Look for a key with a test given by the caller, reading the list as the search goes. -/
def assocBy (I : Interp) (test key : Value) : Nat → Value → Eval Value
  | 0, _ => unfinished
  | fuel + 1, v => do
    if v.isCons then
      let entry ← car v
      let next ← cdr v
      if entry.isCons then
        if (← I.apply test [key, ← car entry]).isTrue then return entry
        else assocBy I test key fuel next
      else assocBy I test key fuel next
    else return .nil

/-- `(assoc KEY LIST &optional TEST)`. -/
def assoc : Primitive := fun I args => do
  between "assoc" args 2 3
  let key := arg args 0
  match given? args 2 with
  | some test => assocBy I test key I.fuel (arg args 1)
  | none =>
    let s ← store
    return findEntry s (fun entry => s.equal key (s.car entry)) (arg args 1)

/-- `(alist-get KEY LIST &optional DEFAULT REMOVE TEST)`. -/
def alistGet : Primitive := fun I args => do
  between "alist-get" args 2 5
  let entry ← match given? args 4 with
    | some test => assocBy I test (arg args 0) I.fuel (arg args 1)
    | none => assq (arg args 0) (arg args 1)
  if entry.isCons then cdr entry else return arg args 2

/-! ## Property lists -/

/-- The pair that holds a key of a property list, going by two pairs at a time while both
are there. -/
def findProperty (s : Store) (key : Value) : Nat → Value → Value → Except Value Value
  | 0, lastValue, _ => .error lastValue
  | fuel + 1, lastValue, v =>
    let valuePair := s.cdr v
    if v.isCons && valuePair.isCons then
      if (s.car v).same key then .ok valuePair
      else findProperty s key fuel valuePair (s.cdr valuePair)
    else .error lastValue

def plistGet : Primitive := fun _ args => do
  between "plist-get" args 2 3
  let s ← store
  match findProperty s (arg args 1) (s.pairs.size + 1) .nil (arg args 0) with
  | .ok valuePair => return s.car valuePair
  | .error _ => return .nil

/-- `(plist-put PLIST KEY VALUE)`: change or extend a property list in place. -/
def plistPut : Primitive := fun _ args => do
  between "plist-put" args 3 4
  let plist := arg args 0
  let found ← get fun s => findProperty s.store (arg args 1) (s.store.pairs.size + 1) .nil plist
  match found with
  | .ok valuePair =>
    modifyStore (·.setCar valuePair (arg args 2))
    return plist
  | .error lastValue =>
    let addition ← list [arg args 1, arg args 2]
    if lastValue.isCons then
      modifyStore (·.setCdr lastValue addition)
      return plist
    else return addition

/-- The tail of a property list that starts with a key. -/
def propertyTail (s : Store) (key : Value) : Nat → Value → Value
  | 0, _ => .nil
  | fuel + 1, v =>
    if v.isCons then
      if (s.car v).same key then v else propertyTail s key fuel (s.cdr (s.cdr v))
    else .nil

def plistMember : Primitive := fun _ args => do
  between "plist-member" args 2 3
  let s ← store
  return propertyTail s (arg args 1) (s.pairs.size + 1) (arg args 0)

def lists : List (String × Primitive) :=
  [("cons", binary "cons" cons),
   ("car", unary "car" carOf), ("cdr", unary "cdr" cdrOf),
   ("cadr", unary "cadr" fun v => do carOf (← cdrOf v)),
   ("cddr", unary "cddr" fun v => do cdrOf (← cdrOf v)),
   ("caar", unary "caar" fun v => do carOf (← carOf v)),
   ("cdar", unary "cdar" fun v => do cdrOf (← carOf v)),
   ("car-safe", unary "car-safe" car), ("cdr-safe", unary "cdr-safe" cdr),
   ("list", fun _ args => list args),
   ("make-list", makeList), ("append", append), ("nconc", nconc),
   ("number-sequence", numberSequence),
   ("nth", binary "nth" fun n v => do nth (← integer n) v),
   ("nthcdr", binary "nthcdr" fun n v => do drop (← integer n).toInt.toNat v),
   ("last", last), ("butlast", butlast),
   ("member", membership "member" fun s a b => s.equal a b),
   ("memq", membership "memq" fun _ a b => a.same b),
   ("memql", membership "memql" fun _ a b => a.sameNumber b),
   ("assq", binary "assq" assq), ("rassq", binary "rassq" rassq),
   ("assoc", assoc), ("alist-get", alistGet),
   ("setcar", setcar), ("rplaca", setcar), ("setcdr", setcdr), ("rplacd", setcdr),
   ("plist-get", plistGet), ("plist-put", plistPut), ("plist-member", plistMember)]

end EditorLisp.Primitives
