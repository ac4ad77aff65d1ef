import EditorLisp.Number.Literal

/-!
# Arithmetic on machine integers

Integers are sixty-four bits wide.  Sums, differences, products and quotients that do not
fit are refused; the rounding divisions work in machine words throughout.
-/

namespace EditorLisp.Number

/-- The sum, if it fits. -/
def add? (a b : Int64) : Option Int64 := fixed? (a.toInt + b.toInt)

/-- The difference, if it fits. -/
def sub? (a b : Int64) : Option Int64 := fixed? (a.toInt - b.toInt)

/-- The product, if it fits. -/
def mul? (a b : Int64) : Option Int64 := fixed? (a.toInt * b.toInt)

/-- The quotient rounded toward zero, if it fits; the divisor must not be zero. -/
def div? (a b : Int64) : Option Int64 := fixed? (a.toInt.tdiv b.toInt)

/-- The remainder of division toward zero; refused where the quotient would not fit. -/
def rem? (a b : Int64) : Option Int64 := (div? a b).map fun _ => a % b

/-- The negation, if it fits. -/
def neg? (a : Int64) : Option Int64 := fixed? (-a.toInt)

/-- The absolute value, if it fits. -/
def abs? (a : Int64) : Option Int64 := fixed? a.toInt.natAbs

def exponentLimit : Nat := twoTo 32

/-- A power with a natural exponent, if it fits.  Powers of zero and of the units depend
only on whether the exponent is zero and on its parity, so they need no large power. -/
def pow? (base : Int64) (exponent : Nat) : Option Int64 :=
  if exponentLimit ≤ exponent then none
  else if base.toInt.natAbs ≤ 1 then
    fixed? (base.toInt.pow (if exponent ≤ 1 then exponent else 2 + exponent % 2))
  else if 64 ≤ exponent then none
  else fixed? (base.toInt.pow exponent)

/-- The quotient rounded down. -/
def floorDiv (a b : Int64) : Int64 :=
  let q := a / b
  if a % b ≠ 0 ∧ decide (a < 0) ≠ decide (b < 0) then q - 1 else q

/-- The quotient rounded up. -/
def ceilDiv (a b : Int64) : Int64 :=
  let q := a / b
  if a % b ≠ 0 ∧ decide (a < 0) = decide (b < 0) then q + 1 else q

/-- The quotient rounded to the nearest integer, a half going to the even neighbour.  It is
found from the quotient rounded down. -/
def roundDiv (a b : Int64) : Int64 :=
  let q := floorDiv a b
  let r := a - q * b
  let twice : Int := r.toInt * 2
  let odd := q.toInt % 2 ≠ 0
  let up :=
    if 0 < b.toInt then b.toInt < twice ∨ (twice = b.toInt ∧ odd)
    else twice < b.toInt ∨ (twice = b.toInt ∧ odd)
  if up then q + 1 else q

/-- The quotient rounded to the nearest integer, if the product that it is found with fits. -/
def roundDiv? (a b : Int64) : Option Int64 := (mul? (floorDiv a b) b).map fun _ => roundDiv a b

/-- A shift to the left, if no bit is lost and the distance is below the word size. -/
def shiftLeft? (a : Int64) (distance : Nat) : Option Int64 :=
  if 64 ≤ distance then none
  else
    let shifted := a <<< Int64.ofNat distance
    if shifted >>> Int64.ofNat distance = a then some shifted else none

/-- A shift to the right that keeps the sign; distances beyond the word size shift all bits
out. -/
def shiftRight (a : Int64) (distance : Nat) : Int64 := a >>> Int64.ofNat (min distance 63)

/-! ## Doubles -/

/-- How a fraction is dropped. -/
inductive Rounding where
  | floor
  | ceiling
  | truncate
  | nearest
deriving Repr, DecidableEq

/-- A finite double rounded to an integer. -/
def Binary.round (b : Binary) (how : Rounding) : Int :=
  let up : Nat := twoTo b.exponent.toNat
  let down : Nat := twoTo (-b.exponent).toNat
  let magnitude : Nat := b.significand * up
  let below : Int := (magnitude / down : Nat)
  let exact := magnitude % down == 0
  let sign : Int := if b.negative then -1 else 1
  match how with
  | .truncate => sign * below
  | .floor => if b.negative && !exact then -below - 1 else sign * below
  | .ceiling => if !b.negative && !exact then below + 1 else sign * below
  | .nearest => sign * (roundHalfEven magnitude down : Nat)

/-- A double rounded to a machine integer, if it is finite and fits. -/
def roundFloat? (x : Float) (how : Rounding) : Option Int64 :=
  match decode x with
  | .finite b => fixed? (b.round how)
  | _ => none

/-- A double rounded toward zero, with what does not fit brought to the nearest bound. -/
def saturate (x : Float) : Int64 :=
  match decode x with
  | .nan => 0
  | .infinite negative => if negative then Int64.minValue else Int64.maxValue
  | .finite b =>
    Int64.ofInt (max Int64.minValue.toInt (min Int64.maxValue.toInt (b.round .truncate)))

/-- The remainder of division toward zero of two doubles, which is exact. -/
def remFloat (x y : Float) : Float :=
  match decode x, decode y with
  | .finite a, .finite b =>
    if b.significand = 0 then 0.0 / 0.0
    else
      let exponent := min a.exponent b.exponent
      let m := a.significand * twoTo (a.exponent - exponent).toNat
      let n := b.significand * twoTo (b.exponent - exponent).toNat
      nearest a.negative (m % n * twoTo exponent.toNat) (twoTo (-exponent).toNat)
  | .finite _, .infinite _ => x
  | _, _ => 0.0 / 0.0

/-! ## Numbers at the front of a text -/

/-- The longest number at the front of a text, as an integer or a double. -/
inductive Parsed where
  | int (n : Int64)
  | float (x : Float)

/-- A number in a radix other than ten at the front of a text, zero if there is none or it
does not fit. -/
def parseRadix (radix : Nat) (text : List Char) : Int64 :=
  let (negative, body) := splitSign text
  let word := body.takeWhile (isDigit radix)
  let magnitude : Int := digitsValue radix word
  (fixed? (if negative then -magnitude else magnitude)).getD 0

/-- An exponent at the front of a text: the characters that make it up. -/
def exponentPrefix : List Char → List Char
  | e :: rest =>
    if e = 'e' ∨ e = 'E' then
      let sign := match rest with
        | c :: _ => if c = '+' ∨ c = '-' then [c] else []
        | [] => []
      let word := (rest.drop sign.length).takeWhile (isDigit 10)
      if word.isEmpty then [] else e :: sign ++ word
    else []
  | [] => []

/-- A decimal number at the front of a text.  A point needs a digit after it, an exponent
needs digits before it, and an integer that does not fit becomes a double. -/
def parseDecimal (text : List Char) : Parsed :=
  let sign := match text with
    | c :: _ => if c = '+' ∨ c = '-' then [c] else []
    | [] => []
  let body := text.drop sign.length
  let whole := body.takeWhile (isDigit 10)
  let rest := body.drop whole.length
  let fraction := match rest with
    | '.' :: tail =>
      let word := tail.takeWhile (isDigit 10)
      if word.isEmpty then [] else '.' :: word
    | _ => []
  let after := rest.drop fraction.length
  let exponent := if whole.isEmpty && fraction.isEmpty then [] else exponentPrefix after
  if !fraction.isEmpty || !exponent.isEmpty then
    match floatLiteral? (sign ++ whole ++ fraction ++ exponent) with
    | some x => .float x
    | none => .int 0
  else if whole.isEmpty then .int 0
  else
    match intLiteral? 10 (sign ++ whole) with
    | some n => .int n
    | none =>
      match floatLiteral? (sign ++ whole) with
      | some x => .float x
      | none => .int 0

end EditorLisp.Number
