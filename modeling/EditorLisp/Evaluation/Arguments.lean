import EditorLisp.Evaluation.Function
import EditorLisp.Number.Fixnum

/-!
# Arguments of primitives

Checks on the number and kind of arguments.  A primitive makes its checks in a fixed order
and the first one that fails decides how the call ends.
-/

namespace EditorLisp

/-- The argument at an index, `nil` if there is none. -/
def arg (args : List Value) (i : Nat) : Value := args.getD i .nil

/-- The argument at an index, unless it is missing or `nil`. -/
def given? (args : List Value) (i : Nat) : Option Value := (args[i]?).filter Value.isTrue

def flag (args : List Value) (i : Nat) : Bool := (arg args i).isTrue

def Value.number? : Value → Option Double
  | .int n => some (Number.ofInt n.toInt)
  | .float x => some x
  | _ => none

def charOfInt? (code : Int) : Option Char :=
  if 0 ≤ code ∧ code.toNat.isValidChar then some (Char.ofNat code.toNat) else none

namespace Eval

def exactly (name : String) (args : List Value) (n : Nat) : Eval Unit :=
  if args.length = n then pure () else wrongArity name n (some n) args.length

/-- Require a least number of arguments. -/
def atLeast (name : String) (args : List Value) (minimum : Nat) : Eval Unit :=
  if minimum ≤ args.length then pure () else wrongArity name minimum none args.length

def atMost (name : String) (args : List Value) (maximum : Nat) : Eval Unit :=
  if args.length ≤ maximum then pure () else wrongArity name 0 (some maximum) args.length

def between (name : String) (args : List Value) (minimum maximum : Nat) : Eval Unit :=
  if minimum ≤ args.length ∧ args.length ≤ maximum then pure ()
  else wrongArity name minimum (some maximum) args.length

def integer (v : Value) : Eval Int64 :=
  match v with
  | .int n => pure n
  | other => wrongType "integerp" other

def number (v : Value) : Eval Double :=
  match v.number? with
  | some x => pure x
  | none => wrongType "numberp" v

def natural (v : Value) : Eval Nat :=
  match v with
  | .int n => if 0 ≤ n.toInt then pure n.toInt.toNat else wrongType "wholenump" v
  | other => wrongType "wholenump" other

def string (v : Value) : Eval String :=
  match v with
  | .str _ text => pure text
  | other => wrongType "stringp" other

def integerOr (default : Int64) : Option Value → Eval Int64
  | none => pure default
  | some v => integer v

def naturalOr (default : Nat) : Option Value → Eval Nat
  | none => pure default
  | some v => natural v

def string? : Option Value → Eval (Option String)
  | none => pure none
  | some v => return some (← string v)

/-- The live buffer that a value stands for: itself, the one of its name, or the current
one for `nil`. -/
def liveBuffer (designator : Value) : Eval Nat := do
  match designator with
  | .nil => currentId
  | .buffer id => if (← workspace).isLive id then pure id else error "Selecting deleted buffer"
  | .str _ name =>
    match (← workspace).find? name with
    | some id => pure id
    | none => error ("No such buffer " ++ name)
  | other => wrongType "stringp" other

/-- The integer before an integer, such as the offset of a position; the least one has
none. -/
def below (n : Int64) : Eval Int64 := granted (Number.sub? n 1)

/-- The most elements of a list or vector that is made at once: each takes twenty-four bytes
of an address space of half a word. -/
def maxElements : Nat := (Number.twoTo 63 - 1) / 24

def elementCount (v : Value) : Eval Nat := do
  let n ← natural v
  if maxElements < n then crash else return n

/-- A list of booleans: whether a value is true. -/
def bool (b : Bool) : Eval Value := pure (.ofBool b)

end Eval

end EditorLisp
