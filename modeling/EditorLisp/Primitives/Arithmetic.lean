import EditorLisp.Evaluation.Arguments
import EditorLisp.Number.Fixnum
import EditorLisp.Number.Shortest

/-!
# Arithmetic primitives

Arithmetic is done in machine integers unless one of the arguments is a float, in which
case all of it is done in doubles.
-/

namespace EditorLisp.Primitives

open Eval Number

def hasFloat (args : List Value) : Bool := args.any fun
  | .float _ => true
  | _ => false

/-- A result that has to fit. -/
def fits {α : Type} (result : Option α) : Eval α :=
  match result with
  | some a => pure a
  | none => leave (.signal "overflow-error" .nil)

/-- Complain about a division by zero. -/
def divisionByZero {α : Type} : Eval α := leave (.signal "arith-error" .nil)

/-- Combine doubles from left to right. -/
def foldFloats (op : Double → Double → Double) : Double → List Value → Eval Value
  | acc, [] => pure (.float acc)
  | acc, v :: rest => do foldFloats op (op acc (← number v)) rest

/-- Combine machine integers from left to right with an operation that may fail. -/
def foldInts (op : Int64 → Int64 → Eval Int64) : Int64 → List Value → Eval Value
  | acc, [] => pure (.int acc)
  | acc, v :: rest => do foldInts op (← op acc (← integer v)) rest

def sum (args : List Value) : Eval Value :=
  if hasFloat args then foldFloats (· + ·) 0.0 args
  else foldInts (fun a b => fits (add? a b)) 0 args

/-- The first value less all others; of a single value its negation. -/
def difference (args : List Value) : Eval Value := do
  match args with
  | [] => return .int 0
  | [.float x] => return .float (-x)
  | [v] => return .int (← fits (neg? (← integer v)))
  | first :: rest =>
    if hasFloat args then foldFloats (· - ·) (← number first) rest
    else foldInts (fun a b => fits (sub? a b)) (← integer first) rest

/-- `(+ N...)`. -/
def add : Primitive := fun _ args => sum args

/-- `(- N...)`. -/
def sub : Primitive := fun _ args => difference args

/-- `(* N...)`. -/
def mul : Primitive := fun _ args =>
  if hasFloat args then foldFloats (· * ·) 1.0 args
  else foldInts (fun a b => fits (mul? a b)) 1 args

/-- Divide the first value by all others in turn. -/
def quotient (args : List Value) : Eval Value := do
  match args with
  | [] => return .nil
  | first :: rest =>
    if hasFloat args then foldFloats (· / ·) (← number first) rest
    else
      foldInts (fun a b => if b == 0 then divisionByZero else fits (div? a b)) (← integer first) rest

/-- `(/ N DIVISOR...)`; of a single number the reciprocal. -/
def div : Primitive := fun _ args => do
  atLeast "/" args 1
  match args with
  | [v] => quotient [.int 1, v]
  | _ => quotient args

/-- `(% A B)`: the remainder of division toward zero. -/
def percent : Primitive := fun _ args => do
  exactly "%" args 2
  let a ← integer (arg args 0)
  let b ← integer (arg args 1)
  if b == 0 then divisionByZero else return .int (← fits (rem? a b))

/-- `(mod A B)`: the remainder with the sign of the divisor. -/
def modulo : Primitive := fun _ args => do
  exactly "mod" args 2
  if hasFloat args then
    let a ← number (arg args 0)
    let b ← number (arg args 1)
    let r := a.combine remFloat b
    let crosses := r.value != 0.0 && decide (r.value < 0.0) != decide (b.value < 0.0)
    return .float (if crosses then r + b else r)
  else
    let a ← integer (arg args 0)
    let b ← integer (arg args 1)
    if b == 0 then divisionByZero
    else
      let r ← fits (rem? a b)
      return .int (if r ≠ 0 ∧ decide (r < 0) ≠ decide (b < 0) then r + b else r)

/-- `(1+ N)`. -/
def add1 : Primitive := fun _ args => do
  exactly "1+" args 1
  match arg args 0 with
  | .float x => return .float (x + 1.0)
  | v => return .int (← fits (add? (← integer v) 1))

/-- `(1- N)`. -/
def sub1 : Primitive := fun _ args => do
  exactly "1-" args 1
  match arg args 0 with
  | .float x => return .float (x - 1.0)
  | v => return .int (← fits (sub? (← integer v) 1))

/-! ## Comparison -/

/-- The order of two doubles, `none` if one is not a number. -/
def compareFloats? (a b : Float) : Option Ordering :=
  if a < b then some .lt else if a > b then some .gt else if a == b then some .eq else none

/-- The order of two numbers, as doubles if one is a float. -/
def compareValues (a b : Value) : Eval (Option Ordering) := do
  if hasFloat [a, b] then
    let x ← number a
    let y ← number b
    return compareFloats? x.value y.value
  else
    let x ← integer a
    let y ← integer b
    return some (compare x.toInt y.toInt)

/-- Whether every value stands in a relation to the next one; checking stops at the first
pair that does not. -/
def compareChain (ok : Ordering → Bool) : List Value → Eval Bool
  | a :: b :: rest => do
    match ← compareValues a b with
    | some o => if ok o then compareChain ok (b :: rest) else return false
    | none => return false
  | _ => return true

/-- A comparison of neighbouring arguments. -/
def comparison (name : String) (ok : Ordering → Bool) : Primitive := fun _ args => do
  atLeast name args 1
  if ← compareChain ok args then
    let _ ← number (arg args 0)
    return .t
  else return .nil

/-- `(/= A B)`. -/
def numNe : Primitive := fun I args => do
  exactly "/=" args 2
  let eq ← comparison "=" (· == .eq) I args
  return .ofBool eq.isNil

/-- Pick the extreme of some numbers; comparison is in doubles, and a value that is not a
number wins. -/
def pickExtreme (better : Float → Float → Bool) :
    Value → Double → List Value → Eval (Value × Double)
  | best, bestNumber, [] => pure (best, bestNumber)
  | best, bestNumber, v :: rest => do
    let n ← number v
    if better n.value bestNumber.value || n.isNaN then pickExtreme better v n rest
    else pickExtreme better best bestNumber rest

/-- The extreme of the arguments, a float if one of them is. -/
def extreme (name : String) (better : Float → Float → Bool) : Primitive := fun _ args => do
  atLeast name args 1
  let first := arg args 0
  let (best, n) ← pickExtreme better first (← number first) (args.drop 1)
  return if hasFloat args then .float n else best

def abs : Primitive := fun _ args => do
  exactly "abs" args 1
  match arg args 0 with
  | .float x => return .float x.abs
  | v => return .int (← fits (abs? (← integer v)))

/-! ## Rounding and conversion -/

/-- A rounding function with an optional divisor: exact on integers, through doubles
otherwise. -/
def rounding (name : String) (how : Rounding) (onInts? : Int64 → Int64 → Option Int64) : Primitive :=
  fun _ args => do
    between name args 1 2
    match arg args 0, given? args 1 with
    | .int n, none => return .int n
    | .int a, some (.int b) =>
      if b == 0 then divisionByZero
      else if a == Int64.minValue && b == -1 then fits none
      else return .int (← granted (onInts? a b))
    | v, divisor =>
      let x := (← number v).value
      let x ← match divisor with
        | some d => do
          let d := (← number d).value
          if d == 0.0 then divisionByZero else pure (x / d)
        | none => pure x
      return .int (← fits (roundFloat? x how))

def float : Primitive := fun _ args => do
  exactly "float" args 1
  return .float (← number (arg args 0))

def expt : Primitive := fun _ args => do
  exactly "expt" args 2
  match arg args 0, arg args 1 with
  | .int base, .int exponent =>
    if 0 ≤ exponent.toInt then return .int (← fits (pow? base exponent.toInt.toNat))
    else return .float (Float.pow (ofInt base.toInt) (ofInt exponent.toInt))
  | base, exponent => return .float ((← number base).combine Float.pow (← number exponent))

def sqrt : Primitive := fun _ args => do
  exactly "sqrt" args 1
  return .float ((← number (arg args 0)).map Float.sqrt)

def parity (name : String) (odd : Bool) : Primitive := fun _ args => do
  exactly name args 1
  let n ← integer (arg args 0)
  return .ofBool ((n.toInt % 2 != 0) == odd)

def zerop : Primitive := fun _ args => do
  exactly "zerop" args 1
  return .ofBool ((← number (arg args 0)).value == 0.0)

def predicate (name : String) (test : Value → Bool) : Primitive := fun _ args => do
  exactly name args 1
  return .ofBool (test (arg args 0))

def isNatural : Value → Bool
  | .int n => 0 ≤ n.toInt
  | _ => false

def isInteger (v : Value) : Bool := v.int?.isSome

def isFloat (v : Value) : Bool := hasFloat [v]

def numberToString : Primitive := fun _ args => do
  exactly "number-to-string" args 1
  match arg args 0 with
  | .int n => text (toString n.toInt)
  | .float x => text (floatText x.value)
  | other => wrongType "numberp" other

def numberIn (s : String) (radix : Nat) : Value :=
  let body := s.toList.dropWhile Text.isBlank
  if radix = 10 then
    match parseDecimal body with
    | .int n => .int n
    | .float x => .float x
  else .int (parseRadix radix body)

/-- `(string-to-number STRING &optional BASE)`. -/
def stringToNumber : Primitive := fun _ args => do
  between "string-to-number" args 1 2
  let s ← string (arg args 0)
  let radix ← integerOr 10 (given? args 1)
  if 2 ≤ radix.toInt ∧ radix.toInt ≤ 16 then return numberIn s radix.toInt.toNat
  else signal "args-out-of-range" [.int radix]

/-! ## Bits -/

/-- A bitwise combination of all arguments. -/
def bitwise (start : Int64) (op : Int64 → Int64 → Int64) : Primitive := fun _ args =>
  foldInts (fun a b => pure (op a b)) start args

def lognot : Primitive := fun _ args => do
  exactly "lognot" args 1
  return .int (~~~ (← integer (arg args 0)))

/-- `(ash N COUNT)`: shift left, or right for a negative count. -/
def ash : Primitive := fun _ args => do
  exactly "ash" args 2
  let value ← integer (arg args 0)
  let count ← integer (arg args 1)
  if 0 ≤ count.toInt then return .int (← fits (shiftLeft? value count.toInt.toNat))
  else return .int (shiftRight value count.toInt.natAbs)

/-! ## Random numbers -/

def draw {α : Type} (choose : Random → Nat → α) : Eval α := do
  let s ← session
  modify fun s => { s with draws := s.draws + 1 }
  return choose s.host.random s.draws

/-- Draw a number below one that is not zero. -/
def drawBelow (limit : Nat) : Eval Nat := do return (← draw fun r n => r.upTo n (limit - 1)).val

/-- `(random LIMIT)`: a number below the limit, or any number. -/
def random : Primitive := fun _ args => do
  atMost "random" args 1
  match args.head? with
  | some (.int limit) =>
    if limit.toInt ≤ 0 then return .int 0 else return .ofNat (← drawBelow limit.toInt.toNat)
  | some (.str _ _) => return .ofNat (← drawBelow (twoTo 63 - 1))
  | _ => return .int (← draw Random.word)

def arithmetic : List (String × Primitive) :=
  [("+", add), ("-", sub), ("*", mul), ("/", div), ("%", percent), ("mod", modulo),
   ("1+", add1), ("succ", add1), ("1-", sub1), ("pred", sub1),
   ("=", comparison "=" (· == .eq)), ("<", comparison "<" (· == .lt)),
   ("<=", comparison "<=" (· != .gt)), (">", comparison ">" (· == .gt)),
   (">=", comparison ">=" (· != .lt)), ("/=", numNe),
   ("max", extreme "max" fun n best => n > best), ("min", extreme "min" fun n best => n < best),
   ("abs", abs),
   ("floor", rounding "floor" .floor fun a b => floorDiv a b),
   ("ceiling", rounding "ceiling" .ceiling fun a b => ceilDiv a b),
   ("round", rounding "round" .nearest roundDiv?),
   ("truncate", rounding "truncate" .truncate fun a b => some (a / b)),
   ("float", float), ("expt", expt), ("sqrt", sqrt),
   ("oddp", parity "cl-oddp" true), ("cl-oddp", parity "cl-oddp" true),
   ("evenp", parity "cl-evenp" false), ("cl-evenp", parity "cl-evenp" false),
   ("zerop", zerop),
   ("natnump", predicate "natnump" isNatural), ("wholenump", predicate "natnump" isNatural),
   ("numberp", predicate "numberp" Value.isNumber),
   ("integerp", predicate "integerp" isInteger), ("fixnump", predicate "integerp" isInteger),
   ("floatp", predicate "floatp" isFloat),
   ("number-to-string", numberToString), ("int-to-string", numberToString),
   ("string-to-number", stringToNumber),
   ("logand", bitwise (-1) (· &&& ·)), ("logior", bitwise 0 (· ||| ·)),
   ("logxor", bitwise 0 (· ^^^ ·)), ("lognot", lognot), ("ash", ash), ("lsh", ash),
   ("random", random)]

end EditorLisp.Primitives
