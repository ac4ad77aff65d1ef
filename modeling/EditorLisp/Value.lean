import EditorLisp.Number.Double

/-!
# Values

A value is an atom or a handle.  Pairs, vectors, closures, keymaps and remembered layouts
live in a store, and a value only names their place there; buffers, windows and timers are
named by number.  Strings are immutable and carry their text, together with the number
they were given when they were made, which is what distinguishes two strings of equal
text.

Because values hold no other values, identity is decided by looking at two of them and
nothing else.
-/

namespace EditorLisp

/-- A runtime value. -/
inductive Value where
  /-- The empty list, which is also falsehood. -/
  | nil
  /-- The canonical true value. -/
  | t
  | int (value : Int64)
  | float (value : Double)
  | symbol (name : String)
  /-- A keyword; the name keeps its colon. -/
  | keyword (name : String)
  /-- A string and the number it was given when it was made. -/
  | str (id : Nat) (text : String)
  /-- A pair, by its place in the store. -/
  | cons (ref : Nat)
  /-- A vector, by its place in the store. -/
  | vector (ref : Nat)
  /-- A function with its environment, by its place in the store. -/
  | closure (ref : Nat)
  /-- A function that rewrites its call, by its place in the store. -/
  | expander (ref : Nat)
  /-- A primitive function, by name. -/
  | subr (name : String)
  | buffer (id : Nat)
  | window (id : Nat)
  /-- A keymap, by its place in the store. -/
  | keymap (ref : Nat)
  /-- A remembered window layout, by its place in the store. -/
  | layout (ref : Nat)
  | timer (id : Nat)
deriving Repr, Inhabited

namespace Value

def ofBool (b : Bool) : Value := if b then .t else .nil

/-- The value that an unescaped name stands for. -/
def ofName (name : String) : Value :=
  if name = "nil" then .nil
  else if name = "t" then .t
  else if name.front = ':' ∧ 1 < name.utf8ByteSize then .keyword name
  else .symbol name

def ofNat (n : Nat) : Value := .int (Int64.ofNat n)

/-- Everything but the empty list counts as true. -/
def isTrue : Value → Bool
  | .nil => false
  | _ => true

/-- Whether the value is the empty list. -/
def isNil (v : Value) : Bool := !v.isTrue

def isCons : Value → Bool
  | .cons _ => true
  | _ => false

/-- Whether the value is a pair or the empty list. -/
def isList : Value → Bool
  | .nil | .cons _ => true
  | _ => false

def isNumber : Value → Bool
  | .int _ | .float _ => true
  | _ => false

def isString : Value → Bool
  | .str _ _ => true
  | _ => false

/-- Whether the value is a symbol; `nil`, `t` and keywords are. -/
def isSymbol : Value → Bool
  | .nil | .t | .symbol _ | .keyword _ => true
  | _ => false

def symbolName? : Value → Option String
  | .nil => some "nil"
  | .t => some "t"
  | .symbol name | .keyword name => some name
  | _ => none

def isNamed (v : Value) (name : String) : Bool := v.symbolName? == some name

def text? : Value → Option String
  | .str _ text => some text
  | _ => none

def int? : Value → Option Int64
  | .int n => some n
  | _ => none

def typeName : Value → String
  | .nil | .t | .symbol _ | .keyword _ => "symbol"
  | .int _ => "integer"
  | .float _ => "float"
  | .str _ _ => "string"
  | .cons _ => "cons"
  | .vector _ => "vector"
  | .closure _ => "interpreted-function"
  | .expander _ => "macro"
  | .subr _ => "subr"
  | .buffer _ => "buffer"
  | .window _ => "window"
  | .keymap _ => "keymap"
  | .layout _ => "window-configuration"
  | .timer _ => "timer"

/-- Identity.  Two strings are identical only if they were made together, and a float is
identical to nothing. -/
def same : Value → Value → Bool
  | .nil, .nil => true
  | .t, .t => true
  | .int a, .int b => a == b
  | .symbol a, .symbol b => a == b
  | .keyword a, .keyword b => a == b
  | .subr a, .subr b => a == b
  | .str a s, .str b r => a == b && s == r
  | .cons a, .cons b => a == b
  | .vector a, .vector b => a == b
  | .closure a, .closure b => a == b
  | .expander a, .expander b => a == b
  | .buffer a, .buffer b => a == b
  | .window a, .window b => a == b
  | .keymap a, .keymap b => a == b
  | .layout a, .layout b => a == b
  | .timer a, .timer b => a == b
  | _, _ => false

/-- Identity, except that floats are compared bit by bit. -/
def sameNumber : Value → Value → Bool
  | .float a, .float b => a.sameBits b
  | a, b => a.same b

end Value

/-- The parameters of a function. -/
structure Parameters where
  /-- Parameters that need an argument. -/
  required : List String := []
  /-- Parameters that default to the empty list. -/
  optional : List String := []
  /-- The parameter that takes all further arguments as a list. -/
  rest : Option String := none
deriving Repr, DecidableEq, Inhabited

namespace Parameters

/-- The least number of arguments. -/
def least (p : Parameters) : Nat := p.required.length

/-- The greatest number of arguments, if there is one. -/
def most? (p : Parameters) : Option Nat :=
  if p.rest.isSome then none else some (p.required.length + p.optional.length)

def written (p : Parameters) : List String :=
  p.required ++ (if p.optional.isEmpty then [] else "&optional" :: p.optional) ++
    (match p.rest with | some name => ["&rest", name] | none => [])

end Parameters

/-- A function defined in Lisp. -/
structure Closure where
  /-- The parameters. -/
  params : Parameters
  /-- The forms of the body. -/
  body : List Value
  /-- The frame in which the function was made, if it was not at top level. -/
  frame : Option Nat
  /-- The documentation string. -/
  doc : Option String
  /-- The name under which the function was defined, for reports. -/
  name : Option String
deriving Repr, Inhabited

end EditorLisp
