import EditorLisp.Number.Shortest

/-!
# The double nearest to a quotient

Reading a decimal literal, dividing exactly and converting an integer all ask for the
double nearest to a quotient of natural numbers.  The answer is computed with natural
numbers only: scale the quotient so that its integer part has fifty-three bits, round
a half to the even neighbour, and assemble the bits.
-/

namespace EditorLisp.Number

/-- `numerator / denominator` rounded to an integer, a half going to the even
neighbour. -/
def roundHalfEven (numerator denominator : Nat) : Nat :=
  let below := numerator / denominator
  let rest := 2 * (numerator % denominator)
  if rest < denominator then below
  else if denominator < rest then below + 1
  else if below % 2 = 0 then below else below + 1

def scaledFloor (numerator denominator : Nat) (exponent : Int) : Nat :=
  numerator * twoTo (-exponent).toNat / (denominator * twoTo exponent.toNat)

/-- The exponent at which a positive quotient has a significand of at most
fifty-three bits, and no smaller than the least exponent of a double. -/
def significandExponent (numerator denominator : Nat) : Int :=
  let guess : Int := max ((numerator.log2 : Int) - (denominator.log2 : Int) - 53) (-1074)
  if scaledFloor numerator denominator guess < twoTo 53 then guess else guess + 1

/-- The bits of the double nearest to a quotient; a denominator of zero counts as an
infinite quotient. -/
def nearestBits (negative : Bool) (numerator denominator : Nat) : UInt64 :=
  let sign : Nat := if negative then twoTo 63 else 0
  let infinity : Nat := (twoTo 11 - 1) * twoTo 52
  let magnitude : Nat :=
    if denominator = 0 then infinity
    else if numerator = 0 then 0
    else
      let exponent := significandExponent numerator denominator
      let significand := roundHalfEven (numerator * twoTo (-exponent).toNat)
        (denominator * twoTo exponent.toNat)
      let word : Nat :=
        if significand < twoTo 52 then significand
        else (exponent + 1075).toNat * twoTo 52 + (significand - twoTo 52)
      min word infinity
  UInt64.ofNat (sign + magnitude)

def nearest (negative : Bool) (numerator denominator : Nat) : Float :=
  Float.ofBits (nearestBits negative numerator denominator)

def ofInt (n : Int) : Float := nearest (n < 0) n.natAbs 1

/-- The double nearest to `significand * 10 ^ exponent`.  Exponents far outside the
range of doubles are answered without forming the power of ten. -/
def ofDecimal (negative : Bool) (significand : Nat) (exponent : Int) : Float :=
  let size : Int := exponent + (Nat.toDigits 10 significand).length
  if significand = 0 ∨ size < -400 then nearest negative 0 1
  else if 400 < size then nearest negative 1 0
  else nearest negative (significand * tenTo exponent.toNat) (tenTo (-exponent).toNat)

end EditorLisp.Number
