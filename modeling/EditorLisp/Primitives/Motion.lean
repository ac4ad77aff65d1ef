import EditorLisp.Primitives.Editing

/-!
# Point and motion

Primitives that ask about the text around the point, and those that move it.
-/

namespace EditorLisp.Primitives

open Eval

/-- A question about the current buffer that takes no arguments. -/
def asking (name : String) (f : Buffer → Value) : Primitive := fun _ args => do
  exactly name args 0
  return f (← currentBuffer)

/-- The code of a character, zero if there is none. -/
def codeOrZero (c : Option Char) : Value := .ofNat ((c.map Char.toNat).getD 0)

def gotoChar : Primitive := unary "goto-char" fun v => do
  let offset ← offsetIn (← currentBuffer) v
  modifyCurrent (·.goto offset)
  return position offset

/-- `(buffer-size &optional BUFFER)`. -/
def bufferSize : Primitive := fun _ args => do
  atMost "buffer-size" args 1
  let id ← liveBuffer (arg args 0)
  return .ofNat ((((← workspace).buffer? id).map Buffer.size).getD 0)

/-- Move by characters; backward motion negates the count. -/
def charMotion (name : String) (backward : Bool) : Primitive := fun _ args => do
  atMost name args 1
  let n ← countArg args 0
  let n ← if backward then granted (Number.neg? n) else pure n
  let (b, _) ← granted ((← currentBuffer).forwardChar? n)
  modifyCurrent fun _ => b
  return .nil

/-- `(forward-line &optional N)`: the answer is the number of lines that could not be
moved. -/
def forwardLine : Primitive := fun _ args => do
  atMost "forward-line" args 1
  let n ← countArg args 0
  return .ofNat (← onCurrent fun b => (b.forwardLine n.toInt).swap)

/-- An offset as seen from the line that is so many lines on; one is the current line. -/
def atLine (b : Buffer) (n : Int64) (f : Buffer → Nat) : Eval Nat := do
  return f (b.forwardLine (← below n).toInt).1

def lineMotion (name : String) (f : Buffer → Nat) : Primitive := fun _ args => do
  atMost name args 1
  let n ← countArg args 0
  let offset ← atLine (← currentBuffer) n f
  modifyCurrent (·.goto offset)
  return .nil

def linePosition (name : String) (f : Buffer → Nat) : Primitive := fun _ args => do
  atMost name args 1
  let n ← countArg args 0
  return position (← atLine (← currentBuffer) n f)

/-- `(count-lines START END)`: a last line without an end counts too. -/
def countLines : Primitive := fun _ args => do
  between "count-lines" args 2 3
  let (x, y) ← region (arg args 0) (arg args 1)
  let (start, stop) := (min x y, max x y)
  let b ← currentBuffer
  let partialLine := start < stop && b.charBefore? stop != some '\n'
  return .ofNat (b.countLines start stop + if partialLine then 1 else 0)

/-- The offset that an optional position stands for, the point by default.  Positions
outside of the text stay there. -/
def freeOffset (b : Buffer) (v : Option Value) : Eval (Option Nat) := do
  match v with
  | none => return some b.point
  | some v =>
    let n := (← below (← integer v)).toInt
    return if n < 0 then none else some n.toNat

/-- `(char-after &optional POSITION)`. -/
def charAfter : Primitive := fun _ args => do
  atMost "char-after" args 1
  let b ← currentBuffer
  return codeOrZero ((← freeOffset b (given? args 0)).bind b.charAfter?)

/-- `(char-before &optional POSITION)`. -/
def charBefore : Primitive := fun _ args => do
  atMost "char-before" args 1
  let b ← currentBuffer
  match (← freeOffset b (given? args 0)).bind b.charBefore? with
  | some c => return .ofNat c.toNat
  | none => return .nil

/-- `(move-to-column COLUMN &optional FORCE)`. -/
def moveToColumn : Primitive := fun _ args => do
  between "move-to-column" args 1 2
  let column ← natural (arg args 0)
  let force := flag args 1
  return .ofNat (← onCurrent fun b =>
    let (b, reached) := b.moveToColumn column
    if force && reached < column then (column, b.insert (Format.copies ' ' (column - reached)))
    else (reached, b))

def wordMotion (name : String) (backward : Bool) : Primitive := fun _ args => do
  atMost name args 1
  let n ← countArg args 0
  modifyCurrent fun b =>
    if (n.toInt < 0) != backward then b.backwardWord n.toInt.natAbs else b.forwardWord n.toInt.natAbs
  return .t

/-- The ranges of a set of characters as it is written: characters, ranges with a hyphen,
and characters quoted with a backslash. -/
def charRanges : Nat → List Char → List (Char × Char)
  | 0, _ => []
  | _, [] => []
  | fuel + 1, cs =>
    let cs := match cs with
      | '\\' :: c :: rest => c :: rest
      | _ => cs
    match cs with
    | first :: '-' :: last :: rest => (first, last) :: charRanges fuel rest
    | c :: rest => (c, c) :: charRanges fuel rest
    | [] => []

/-- The test of a set of characters; a caret in front negates it. -/
def charSetTest (spec : String) : Char → Bool :=
  let (negated, body) := match spec.toList with
    | '^' :: rest => (true, rest)
    | cs => (false, cs)
  let ranges := charRanges (body.length + 1) body
  fun c => (ranges.any fun (first, last) => first ≤ c && c ≤ last) != negated

/-- `(skip-chars-forward SET &optional LIMIT)`. -/
def skipCharsForward : Primitive := fun _ args => do
  between "skip-chars-forward" args 1 2
  let test := charSetTest (← string (arg args 0))
  let b ← currentBuffer
  let limit ← match given? args 1 with
    | some v => offsetIn b v
    | none => pure b.size
  return .ofNat (← onCurrent fun b => (b.skipForward test limit).swap)

/-- `(skip-chars-backward SET &optional LIMIT)`. -/
def skipCharsBackward : Primitive := fun _ args => do
  between "skip-chars-backward" args 1 2
  let test := charSetTest (← string (arg args 0))
  let b ← currentBuffer
  let limit ← match given? args 1 with
    | some v => offsetIn b v
    | none => pure 0
  let distance ← onCurrent fun b => (b.skipBackward test limit).swap
  return .int (-(Int64.ofNat distance))

def bufferString : Primitive := fun _ args => do
  exactly "buffer-string" args 0
  text (← currentBuffer).content

def bufferSubstring : Primitive := binary "buffer-substring" fun first second => do
  let (start, stop) ← region first second
  text ((← currentBuffer).substring start stop)

def motion : List (String × Primitive) :=
  let lineStart := linePosition "line-beginning-position" fun b => b.lineStart b.point
  let lineEnd := linePosition "line-end-position" fun b => b.lineEnd b.point
  let point := asking "point" fun b => position b.point
  [("point", point), ("el-point", point), ("point-min", asking "point-min" fun _ => position 0),
   ("point-max", asking "point-max" fun b => position b.size),
   ("goto-char", gotoChar), ("buffer-size", bufferSize),
   ("forward-char", charMotion "forward-char" false),
   ("backward-char", charMotion "backward-char" true), ("forward-line", forwardLine),
   ("beginning-of-line", lineMotion "beginning-of-line" fun b => b.lineStart b.point),
   ("end-of-line", lineMotion "end-of-line" fun b => b.lineEnd b.point),
   ("line-beginning-position", lineStart), ("pos-bol", lineStart),
   ("line-end-position", lineEnd), ("pos-eol", lineEnd),
   ("count-lines", countLines), ("char-after", charAfter), ("char-before", charBefore),
   ("following-char", asking "following-char" fun b => codeOrZero (b.charAfter? b.point)),
   ("preceding-char", asking "preceding-char" fun b => codeOrZero (b.charBefore? b.point)),
   ("bolp", asking "bolp" fun b => .ofBool (b.lineStart b.point == b.point)),
   ("eolp", asking "eolp" fun b => .ofBool (b.lineEnd b.point == b.point)),
   ("bobp", asking "bobp" fun b => .ofBool (b.point == 0)),
   ("eobp", asking "eobp" fun b => .ofBool (b.point == b.size)),
   ("current-column", asking "current-column" fun b => .ofNat b.column),
   ("move-to-column", moveToColumn), ("forward-word", wordMotion "forward-word" false),
   ("backward-word", wordMotion "backward-word" true),
   ("skip-chars-forward", skipCharsForward), ("skip-chars-backward", skipCharsBackward),
   ("buffer-string", bufferString), ("buffer-substring", bufferSubstring),
   ("buffer-substring-no-properties", bufferSubstring)]

end EditorLisp.Primitives
