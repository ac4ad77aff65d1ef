import EditorLisp.Number.Fixnum
import EditorLisp.Number.Nearest
import EditorLisp.Number.Shortest
import EditorLisp.Value

/-!
# Formatting

Expansion of control strings.  A directive is a percent sign, flags, a width, a precision
and a letter; it takes the next argument, except for the doubled percent sign.
-/

namespace EditorLisp.Format

open Number

/-- The options of a directive. -/
structure Directive where
  /-- Fill on the right. -/
  left : Bool := false
  /-- Fill numbers with zeros. -/
  zero : Bool := false
  /-- Write a plus sign. -/
  plus : Bool := false
  /-- Leave a blank in place of a plus sign. -/
  space : Bool := false
  width : Option Nat := none
  precision : Option Nat := none
deriving Repr, DecidableEq

/-- Why a control string cannot be expanded. -/
inductive Fault where
  | notEnoughArguments
  | unfinished
  /-- The argument of an integer directive is no number. -/
  | notInteger (v : Value)
  | notNumber
  /-- The argument of a character directive is no character. -/
  | notCharacter (v : Value)
  | unknown (letter : Char)
  /-- The text is beyond what can be written. -/
  | tooLong

/-- The most bytes that a text can take. -/
def maxLength : Nat := twoTo 63 - 1

def maxPlaces : Nat := 65535

/-- The most places of a double in scientific notation, which has a digit before them. -/
def maxScientificPlaces : Nat := maxPlaces - 1

def copies (c : Char) (n : Nat) : String := String.ofList (List.replicate n c)

def splitSign (body : List Char) : List Char × List Char :=
  match body with
  | '-' :: rest => (['-'], rest)
  | '+' :: rest => (['+'], rest)
  | ' ' :: rest => ([' '], rest)
  | _ => ([], body)

namespace Directive

/-- Fill a text up to the width.  Zeros go between the sign and the digits of a number. -/
def pad (d : Directive) (body : String) (numeric : Bool) : Except Fault String :=
  let fill := d.width.getD 0 - body.length
  if fill = 0 then .ok body
  else if maxLength < fill + body.utf8ByteSize then .error .tooLong
  else if d.left then .ok (body ++ copies ' ' fill)
  else if d.zero && numeric then
    let (sign, digits) := splitSign body.toList
    .ok (String.ofList sign ++ copies '0' fill ++ String.ofList digits)
  else .ok (copies ' ' fill ++ body)

def sign (d : Directive) (negative : Bool) : String :=
  if negative then "-" else if d.plus then "+" else if d.space then " " else ""

end Directive

/-! ## Numbers -/

/-- A magnitude in scientific form: an integer of one digit before the point and so many
after it, and the power of ten. -/
def scientific (b : Binary) (places : Nat) : Nat × Int :=
  if b.significand = 0 then (0, 0)
  else
    let power := b.pointPosition - 1
    let n := b.inUnits (places - power)
    if n = tenTo (places + 1) then (n / 10, power + 1) else (n, power)

/-- A power of ten with its sign and at least two digits. -/
def powerText (power : Int) : String :=
  let digits := toString power.natAbs
  "e" ++ (if power < 0 then "-" else "+") ++ (if digits.length < 2 then "0" ++ digits else digits)

def scientificText (b : Binary) (places : Nat) : String :=
  let (n, power) := scientific b places
  positional n (-(places : Int)) ++ powerText power

/-- Drop the zeros at the end of a fraction, and the point if nothing is left of it. -/
def stripFraction (s : String) : String :=
  if s.contains '.' then
    let rest := s.toList.reverse.dropWhile (· = '0')
    String.ofList (rest.dropWhile (· = '.')).reverse
  else s

/-- The power of ten of the first digit of a double, as it is estimated to choose a
notation. -/
def estimatedPower (x : Float) : Int :=
  match decode x with
  | .infinite _ => twoTo 31 - 1
  | _ => (saturate x.log10.floor).toInt

/-- How a number of significant digits is laid out: how many places there are, and whether
the notation is scientific, as it is for magnitudes that are very large or very small.  The
number of digits is compared in thirty-two bits. -/
def generalPlaces (x : Float) (digits : Nat) : Nat × Bool :=
  let power := estimatedPower x
  let compared := Int.bmod digits (twoTo 32)
  if power < -4 ∨ compared ≤ power then (digits - 1, true) else ((compared - 1 - power).toNat, false)

/-- A magnitude with so many significant digits, without zeros at the end. -/
def generalText (x : Float) (b : Binary) (digits : Nat) : String :=
  if b.significand = 0 then "0"
  else
    let (places, isScientific) := generalPlaces x digits
    if isScientific then
      let (n, power) := scientific b places
      stripFraction (positional n (-(places : Int))) ++ powerText power
    else stripFraction (positional (b.inUnits places) (-(places : Int)))

def digitsIn (letter : Char) (n : Nat) : String :=
  if letter = 'o' then String.ofList (Nat.toDigits 8 n)
  else if letter = 'x' then String.ofList (Nat.toDigits 16 n)
  else if letter = 'X' then String.ofList ((Nat.toDigits 16 n).map Char.toUpper)
  else String.ofList (Nat.toDigits 10 n)

/-- An integer under a directive; the precision is the least number of digits. -/
def integerText (d : Directive) (n : Int64) (letter : Char) : Except Fault String := do
  let sign := d.sign (n.toInt < 0)
  let digits := digitsIn letter n.toInt.natAbs
  let fill := d.precision.getD 0 - digits.length
  if maxLength < sign.length + fill + digits.length then throw .tooLong
  d.pad (sign ++ copies '0' fill ++ digits) true

/-- Whether a double can be written with a precision; it has to be so for those that are no
numbers, too. -/
def canWrite (x : Float) (letter : Char) (places : Nat) : Bool :=
  if letter = 'f' then places ≤ maxPlaces
  else if letter = 'e' then places ≤ maxScientificPlaces
  else
    x == 0.0 ||
      let (places, isScientific) := generalPlaces x (max places 1)
      places ≤ if isScientific then maxScientificPlaces else maxPlaces

def floatText (d : Directive) (x : Float) (letter : Char) : Except Fault String :=
  let places := d.precision.getD 6
  if !canWrite x.abs letter places then .error .tooLong
  else
    let (body, negative) :=
      match decode x with
      | .nan => ("nan", false)
      | .infinite negative => ("inf", negative)
      | .finite b =>
        let body :=
          if letter = 'f' then positional (b.inUnits places) (-(places : Int))
          else if letter = 'e' then scientificText b places
          else generalText x.abs b (max places 1)
        (body, b.negative && b.significand != 0)
    d.pad (d.sign negative ++ body) true

/-! ## Control strings -/

def readFlags : Directive → List Char → Directive × List Char
  | d, '-' :: rest => readFlags { d with left := true } rest
  | d, '0' :: rest => readFlags { d with zero := true } rest
  | d, '+' :: rest => readFlags { d with plus := true } rest
  | d, ' ' :: rest => readFlags { d with space := true } rest
  | d, '#' :: rest => readFlags d rest
  | d, rest => (d, rest)

/-- A count in decimal digits that fits a machine word. -/
def count? (digits : List Char) : Option Nat :=
  let n := digits.foldl (fun n c => 10 * n + (c.toNat - '0'.toNat)) 0
  if digits.isEmpty ∨ twoTo 64 ≤ n then none else some n

def readDirective (cs : List Char) : Directive × List Char :=
  let (d, cs) := readFlags {} cs
  let d := { d with width := count? (cs.takeWhile Char.isDigit) }
  match cs.dropWhile Char.isDigit with
  | '.' :: rest =>
    ({ d with precision := some ((count? (rest.takeWhile Char.isDigit)).getD 0) },
      rest.dropWhile Char.isDigit)
  | rest => (d, rest)

def convert (print : Bool → Value → String) (d : Directive) (letter : Char) (v : Value) :
    Except Fault String :=
  if letter = 's' ∨ letter = 'S' then
    let text := print (letter = 'S') v
    let text := match d.precision with
      | some n => String.ofList (text.toList.take n)
      | none => text
    d.pad text false
  else if letter = 'c' then
    match v with
    | .int n =>
      if 0 ≤ n.toInt ∧ n.toInt.toNat.isValidChar then
        d.pad (Char.ofNat n.toInt.toNat).toString false
      else .error (.notCharacter v)
    | other => .error (.notCharacter other)
  else if letter = 'f' ∨ letter = 'e' ∨ letter = 'g' then
    match v with
    | .int n => floatText d (ofInt n.toInt) letter
    | .float x => floatText d x.value letter
    | _ => .error .notNumber
  else
    match v with
    | .int n => integerText d n letter
    | .float x => integerText d (saturate x.value) letter
    | other => .error (.notInteger other)

def letters : List Char := ['s', 'S', 'd', 'o', 'x', 'X', 'c', 'f', 'e', 'g']

/-- Expand the rest of a control string.  The printer is asked for a form that can be read
back if its first argument is true. -/
def expand (print : Bool → Value → String) : Nat → List Value → List Char → String → Except Fault String
  | 0, _, _, out => .ok out
  | _, _, [], out => .ok out
  | fuel + 1, args, '%' :: rest, out =>
    match readDirective rest with
    | (_, []) => .error .unfinished
    | (d, letter :: rest) =>
      if letter = '%' then expand print fuel args rest (out.push '%')
      else if letter ∈ letters then
        match args with
        | [] => .error .notEnoughArguments
        | v :: args => do expand print fuel args rest (out ++ (← convert print d letter v))
      else .error (.unknown letter)
  | fuel + 1, args, c :: rest, out => expand print fuel args rest (out.push c)

def format (print : Bool → Value → String) (control : String) (args : List Value) :
    Except Fault String :=
  expand print (control.length + 1) args control.toList ""

end EditorLisp.Format
