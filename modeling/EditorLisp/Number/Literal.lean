import EditorLisp.Number.Nearest

/-!
# Number literals

The written forms of integers and of decimal fractions, read strictly: the whole text
has to be a literal.  Integers are sixty-four bits wide and a literal outside that
range is refused rather than wrapped.
-/

namespace EditorLisp.Number

/-- The value of a digit in a radix of at most thirty-six, in either letter case. -/
def digitValue? (radix : Nat) (c : Char) : Option Nat :=
  let value : Option Nat :=
    if '0' ≤ c ∧ c ≤ '9' then some (c.toNat - '0'.toNat)
    else if 'a' ≤ c ∧ c ≤ 'z' then some (c.toNat - 'a'.toNat + 10)
    else if 'A' ≤ c ∧ c ≤ 'Z' then some (c.toNat - 'A'.toNat + 10)
    else none
  value.filter (· < radix)

def isDigit (radix : Nat) (c : Char) : Bool := (digitValue? radix c).isSome

/-- The positional value of a word of digits; other characters count as zero. -/
def digitsValue (radix : Nat) (word : List Char) : Nat :=
  word.foldl (fun value c => value * radix + (digitValue? radix c).getD 0) 0

/-- A mathematical integer as a sixty-four bit one, if it fits. -/
def fixed? (n : Int) : Option Int64 :=
  if Int64.minValue.toInt ≤ n ∧ n ≤ Int64.maxValue.toInt then some (Int64.ofInt n) else none

/-- An optional sign split off a word: whether it was a minus, and the rest. -/
def splitSign : List Char → Bool × List Char
  | '-' :: rest => (true, rest)
  | '+' :: rest => (false, rest)
  | word => (false, word)

/-- A nonempty word of digits with an optional sign, in sixty-four bit range. -/
def intLiteral? (radix : Nat) (word : List Char) : Option Int64 :=
  let (negative, body) := splitSign word
  if body.isEmpty || !body.all (isDigit radix) then none
  else
    let magnitude : Int := digitsValue radix body
    fixed? (if negative then -magnitude else magnitude)

/-- The parts of a decimal literal: sign, digits before and after the point, and the
exponent. -/
structure DecimalParts where
  /-- Whether the literal starts with a minus sign. -/
  negative : Bool
  /-- The digits before the point. -/
  whole : List Char
  /-- The digits after the point. -/
  fraction : List Char
  /-- The written power of ten, zero if none is written. -/
  exponent : Int

/-- The exponent part of a decimal literal: empty, or a letter `e`, an optional sign
and at least one digit. -/
def exponentPart? : List Char → Option Int
  | [] => some 0
  | c :: rest =>
    if c = 'e' ∨ c = 'E' then
      let (negative, body) := splitSign rest
      if body.isEmpty || !body.all (isDigit 10) then none
      else some (if negative then -(digitsValue 10 body : Int) else digitsValue 10 body)
    else none

/-- Take a decimal literal apart.  At least one digit must stand before or after the
point. -/
def decimalParts? (word : List Char) : Option DecimalParts :=
  let (negative, body) := splitSign word
  let whole := body.takeWhile (isDigit 10)
  let rest := body.dropWhile (isDigit 10)
  let (fraction, rest) :=
    match rest with
    | '.' :: tail => (tail.takeWhile (isDigit 10), tail.dropWhile (isDigit 10))
    | _ => ([], rest)
  if whole.isEmpty && fraction.isEmpty then none
  else (exponentPart? rest).map fun exponent => ⟨negative, whole, fraction, exponent⟩

def DecimalParts.toFloat (d : DecimalParts) : Float :=
  ofDecimal d.negative (digitsValue 10 (d.whole ++ d.fraction))
    (d.exponent - (d.fraction.length : Int))

def floatLiteral? (word : List Char) : Option Float :=
  (decimalParts? word).map DecimalParts.toFloat

end EditorLisp.Number
