import EditorLisp.Text.Blank
import EditorLisp.Text.CaseTable
import EditorLisp.Text.RangeTable

/-!
# Character classes and letter case

Which characters are letters or digits, how characters and strings change case, and which
characters differ in case only.  Lowering a string is not done character by character: a
capital sigma at the end of a word becomes the final form of the letter.
-/

namespace EditorLisp.Text

/-! ## Membership in ordered ranges

Character properties are stored as arrays of disjoint ranges in increasing order.  A
bisection of bounded depth finds the range that could hold a code point. -/

def bisect (ranges : Array (Nat × Nat)) (n : Nat) : Nat → Nat → Nat → Bool
  | 0, _, _ => false
  | fuel + 1, low, high =>
    if low < high then
      let middle := (low + high) / 2
      match ranges[middle]? with
      | none => false
      | some (first, last) =>
        if n < first then bisect ranges n fuel low middle
        else if last < n then bisect ranges n fuel (middle + 1) high
        else true
    else false

def inRanges (ranges : Array (Nat × Nat)) (n : Nat) : Bool :=
  bisect ranges n (ranges.size + 1) 0 ranges.size

/-! ## Classes and case -/

def isAlphanumeric (c : Char) : Bool :=
  if c.toNat < 128 then c.isAlphanum else inRanges alphanumericRanges c.toNat

/-- Whether a character belongs to words in patterns. -/
def isPatternWord (c : Char) : Bool :=
  if c.toNat < 128 then c.isAlphanum || c == '_' else inRanges wordRanges c.toNat

/-- Whether a character belongs to words in buffers. -/
def isBufferWord (c : Char) : Bool := isAlphanumeric c || c == '_'

def isControl (c : Char) : Bool := c.toNat < 0x20 || (0x7F ≤ c.toNat && c.toNat < 0xA0)

def moved? (runs : Array (Nat × Nat × Nat × Int)) (n : Nat) : Option Nat :=
  (runs.find? fun (first, last, stride, _) =>
    first ≤ n && n ≤ last && (n - first) % stride == 0).map
    fun (_, _, _, distance) => ((n : Int) + distance).toNat

def mapCase (runs : Array (Nat × Nat × Nat × Int)) (specials : List (Nat × List Nat))
    (c : Char) : List Char :=
  match specials.lookup c.toNat with
  | some codes => codes.map Char.ofNat
  | none => [((moved? runs c.toNat).map Char.ofNat).getD c]

def upper (c : Char) : List Char :=
  if c.toNat < 128 then [c.toUpper] else mapCase upperDeltas upperSpecials c

/-- The lower case of a character, by itself. -/
def lower (c : Char) : List Char :=
  if c.toNat < 128 then [c.toLower] else mapCase lowerDeltas lowerSpecials c

/-- Whether a cased character comes first, apart from ignorable ones. -/
def startsCased (cs : List Char) : Bool :=
  (cs.dropWhile fun c => inRanges ignorableRanges c.toNat).head?.any
    fun c => inRanges casedRanges c.toNat

/-- Lower a text whose characters before the current one are given in reverse. -/
def lowerFrom (before : List Char) : List Char → List Char
  | [] => []
  | c :: rest =>
    let image :=
      if c = 'Σ' then
        if startsCased before && !startsCased rest then ['ς'] else ['σ']
      else lower c
    image ++ lowerFrom (c :: before) rest

def upperString (s : String) : String := String.ofList (s.toList.flatMap upper)

def lowerString (s : String) : String := String.ofList (lowerFrom [] s.toList)

def fold (n : Nat) : Nat :=
  if n < 128 then (if 65 ≤ n ∧ n ≤ 90 then n + 32 else n) else (moved? foldDeltas n).getD n

/-- The code points that fold like a given one, itself included. -/
def foldOrbit (n : Nat) : List Nat :=
  let target := fold n
  target :: foldDeltas.toList.filterMap fun (first, last, stride, distance) =>
    let source := (target : Int) - distance
    if (first : Int) ≤ source ∧ source ≤ last ∧ (source - first) % stride = 0 then
      some source.toNat
    else none

end EditorLisp.Text
