import EditorLisp.Number.Power

/-!
# Decimal digits of a binary number

A double is an integer significand times a power of two, so every question about
its decimal text is a question about natural numbers.  This module takes a double
apart and answers two of them exactly: which decimal of a given number of places is
nearest, and which shortest string of digits still reads back as the same double.

Printed floats lay the digits out in one way, which comes last; formats that lay them out
otherwise call what comes before it.
-/

namespace EditorLisp.Number

/-- A finite double taken apart: its value is `significand * 2 ^ exponent`, negated
when `negative` is set. -/
structure Binary where
  /-- The sign bit. -/
  negative : Bool
  /-- The integer significand, hidden bit included. -/
  significand : Nat
  /-- The power of two that scales the significand. -/
  exponent : Int
deriving Repr, DecidableEq

/-- The three kinds of double. -/
inductive Decoded where
  /-- Not a number. -/
  | nan
  /-- An infinity with its sign. -/
  | infinite (negative : Bool)
  /-- A finite number. -/
  | finite (value : Binary)
deriving Repr, DecidableEq

/-- Read sign, exponent and significand off the sixty-four bits of a double. -/
def decodeBits (bits : UInt64) : Decoded :=
  let word : Nat := bits.toNat
  let negative := word / twoTo 63 == 1
  let biased : Nat := word / twoTo 52 % twoTo 11
  let fraction : Nat := word % twoTo 52
  if biased = twoTo 11 - 1 then
    if fraction = 0 then .infinite negative else .nan
  else if biased = 0 then
    .finite ⟨negative, fraction, -1074⟩
  else
    .finite ⟨negative, fraction + twoTo 52, (biased : Int) - 1075⟩

def decode (x : Float) : Decoded := decodeBits x.toBits

namespace Binary

/-- The magnitude as a quotient of natural numbers, multiplied by four so that the
midpoints to both neighbours are integers over the same denominator. -/
def quarters (b : Binary) : Nat × Nat :=
  let shift := b.exponent - 2
  if 0 ≤ shift then (4 * b.significand * twoTo shift.toNat, 1)
  else (4 * b.significand, twoTo (-shift).toNat)

/-- Twice the distance to the lower neighbour is smaller just above a power of two. -/
def lowerGap (b : Binary) : Nat :=
  if b.significand = twoTo 52 ∧ -1074 < b.exponent then 1 else 2

/-- Number of decimal digits before the point, for a magnitude of at least one. -/
def wholeDigits (numerator denominator : Nat) : Nat :=
  (Nat.toDigits 10 (numerator / denominator)).length

/-- Number of factors of ten that lift a magnitude below one to at least one. -/
def leadingZeros (numerator denominator : Nat) : Nat → Nat
  | 0 => 0
  | fuel + 1 =>
    if denominator ≤ numerator * 10 then 0
    else leadingZeros (numerator * 10) denominator fuel + 1

/-- The position `k` of the decimal point: the magnitude lies in
`[10 ^ (k - 1), 10 ^ k)`. -/
def pointPosition (b : Binary) : Int :=
  let (numerator, denominator) := b.quarters
  if denominator ≤ numerator then wholeDigits numerator denominator
  else -(leadingZeros numerator denominator 400 : Int)

/-- The best decimal of `places` significant digits that still rounds to the double,
as an integer count of units of `10 ^ (point - places)`.  Of two such decimals the
nearer one is taken, and the larger one on a tie. -/
def withDigits? (b : Binary) (point : Int) (places : Nat) : Option Nat :=
  let unit := point - (places : Int)
  let binary := b.exponent - 2
  let up := twoTo binary.toNat * tenTo (-unit).toNat
  let unitSize := twoTo (-binary).toNat * tenTo unit.toNat
  let value := 4 * b.significand * up
  let low := (4 * b.significand - b.lowerGap) * up
  let high := (4 * b.significand + 2) * up
  let inside (n : Nat) : Bool :=
    if b.significand % 2 = 0 then low ≤ n * unitSize ∧ n * unitSize ≤ high
    else low < n * unitSize ∧ n * unitSize < high
  let below := value / unitSize
  let above := below + 1
  match inside below, inside above with
  | true, true => some (if value - below * unitSize < above * unitSize - value then below else above)
  | true, false => some below
  | false, true => some above
  | false, false => none

/-- Try `places`, `places + 1`, … significant digits until one reads back. -/
def shortestFrom (b : Binary) (point : Int) (places : Nat) : Nat → Nat × Int
  | 0 => (b.significand, 0)
  | fuel + 1 =>
    match b.withDigits? point places with
    | some n => (n, point - (places : Int))
    | none => shortestFrom b point (places + 1) fuel

/-- The fewest significant digits that read back as this magnitude, as an integer and
a power of ten.  Seventeen digits always suffice. -/
def shortest (b : Binary) : Nat × Int :=
  if b.significand = 0 then (0, 0) else b.shortestFrom b.pointPosition 1 18

/-- The magnitude in units of `10 ^ (-places)`, rounded to the nearest integer with a
half going to the even neighbour. -/
def inUnits (b : Binary) (places : Int) : Nat :=
  let up := twoTo b.exponent.toNat * tenTo places.toNat
  let down := twoTo (-b.exponent).toNat * tenTo (-places).toNat
  let value := b.significand * up
  let below := value / down
  let rest := 2 * (value % down)
  if rest < down then below
  else if down < rest then below + 1
  else if below % 2 = 0 then below else below + 1

end Binary

def digits (n : Nat) : String := String.ofList (Nat.toDigits 10 n)

/-- `n * 10 ^ scale` written out in full, without a point when there is no
fraction and without an exponent. -/
def positional (n : Nat) (scale : Int) : String :=
  let text := Nat.toDigits 10 n
  if 0 ≤ scale then String.ofList (text ++ List.replicate scale.toNat '0')
  else
    let fraction := (-scale).toNat
    let padded := List.replicate (fraction + 1 - text.length) '0' ++ text
    String.ofList (padded.take (padded.length - fraction)) ++ "." ++
      String.ofList (padded.drop (padded.length - fraction))

/-- Drop trailing zeros of a nonzero count, moving the scale up by as many places. -/
def stripZeros (n : Nat) (scale : Int) : Nat → Nat × Int
  | 0 => (n, scale)
  | fuel + 1 => if n ≠ 0 ∧ n % 10 = 0 then stripZeros (n / 10) (scale + 1) fuel else (n, scale)

/-- A minus sign where one is due. -/
def signed (negative : Bool) (text : String) : String :=
  if negative then "-" ++ text else text

/-- A finite magnitude with exactly `places` digits after the point. -/
def Binary.fixed (b : Binary) (places : Nat) : String :=
  signed b.negative (positional (b.inUnits places) (-(places : Int)))

def Binary.isWhole (b : Binary) : Bool :=
  0 ≤ b.exponent || b.significand % twoTo (-b.exponent).toNat == 0

/-- The integer part of the magnitude, rounded toward zero. -/
def Binary.whole (b : Binary) : Nat :=
  if 0 ≤ b.exponent then b.significand * twoTo b.exponent.toNat
  else b.significand / twoTo (-b.exponent).toNat

/-! ## Printed floats

The text of a floating-point value: whole numbers below `10 ^ 16` keep one zero after
the point, every other finite number is written with the fewest digits that read
back, always positionally, and the three exceptional values have fixed spellings. -/

def Binary.plain (b : Binary) : String :=
  let (n, scale) := b.shortest
  let (n, scale) := stripZeros n scale 20
  signed b.negative (positional n scale)

def floatText (x : Float) : String :=
  match decode x with
  | .nan => "0.0e+NaN"
  | .infinite negative => signed negative "1.0e+INF"
  | .finite b =>
    if b.isWhole ∧ b.whole < tenTo 16 then b.fixed 1 else b.plain

end EditorLisp.Number
