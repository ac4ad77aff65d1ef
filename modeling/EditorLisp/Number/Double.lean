/-!
# Doubles and the sign of what is not a number

`Float` has a single value that is not a number.  In sixty-four bits it has a sign like any
other: an operation without an answer gives the one whose sign is set, and negation and the
absolute value lead to the other.  No comparison of numbers and no printed form tells the
two apart; a comparison bit by bit does, so a double here is a `Float` or that one further
value.

The main statement is that a double has the bits of itself, whether it is a number or not.
-/

namespace EditorLisp

/-- A double. -/
inductive Double where
  /-- A `Float`; where that is not a number, its sign is set. -/
  | ofFloat (value : Float)
  /-- What is not a number and has no sign. -/
  | unsignedNaN
deriving Repr

namespace Double

instance : Coe Float Double := ⟨ofFloat⟩

instance : OfScientific Double := ⟨fun significand isNegative exponent =>
  ofFloat (OfScientific.ofScientific significand isNegative exponent)⟩

instance : Inhabited Double := ⟨0.0⟩

/-- The double as a `Float`, without the sign of what is not a number. -/
def value : Double → Float
  | ofFloat x => x
  | unsignedNaN => 0.0 / 0.0

/-- Whether the double is not a number. -/
def isNaN (x : Double) : Bool := x.value.isNaN

def sameBits : Double → Double → Bool
  | ofFloat x, ofFloat y => x.toBits == y.toBits
  | unsignedNaN, unsignedNaN => true
  | _, _ => false

theorem sameBits_self (x : Double) : x.sameBits x = true := by
  cases x <;> simp [sameBits]

/-- An operation on one double; what is not a number stays as it is. -/
def map (op : Float → Float) (x : Double) : Double :=
  if x.isNaN then x else ofFloat (op x.value)

/-- An operation on two doubles.  A result that is not a number is the first operand that
is none, with its sign; if both operands are numbers, its sign is set. -/
def combine (op : Float → Float → Float) (x y : Double) : Double :=
  let result := op x.value y.value
  if result.isNaN then
    if x.isNaN then x else if y.isNaN then y else ofFloat result
  else ofFloat result

instance : Add Double := ⟨combine (· + ·)⟩

instance : Sub Double := ⟨combine (· - ·)⟩

instance : Mul Double := ⟨combine (· * ·)⟩

instance : Div Double := ⟨combine (· / ·)⟩

def neg : Double → Double
  | ofFloat x => if x.isNaN then unsignedNaN else ofFloat (-x)
  | unsignedNaN => ofFloat (0.0 / 0.0)

instance : Neg Double := ⟨neg⟩

/-- The double without its sign. -/
def abs (x : Double) : Double := if x.isNaN then unsignedNaN else ofFloat x.value.abs

end Double

end EditorLisp
