import EditorLisp.Primitives.String

/-!
# Editing

Primitives that change the text of buffers.  Positions that programs see count from one
and are brought into the text.
-/

namespace EditorLisp.Primitives

open Eval

def offsetIn (b : Buffer) (v : Value) : Eval Nat := do
  let n ← match v with
    | .int n => pure n
    | .float x => pure (Number.saturate x.value)
    | other => wrongType "integer-or-marker-p" other
  return b.clamp (← below n).toInt.toNat

def position (offset : Nat) : Value := .ofNat (offset + 1)

def countArg (args : List Value) (i : Nat) : Eval Int64 := integerOr 1 (given? args i)

def region (first second : Value) : Eval (Nat × Nat) := do
  let b ← currentBuffer
  let start ← offsetIn b first
  let stop ← offsetIn b second
  return (start, stop)

/-- The text to insert for a value: a string, a character, or the name of a symbol. -/
def insertionText (v : Value) : Eval String := do
  match v with
  | .str _ s => return s
  | .nil => return ""
  | .int code =>
    match charOfInt? code.toInt with
    | some c => return c.toString
    | none => wrongType "char-or-string-p" v
  | .symbol name | .keyword name => return name
  | .t => return "t"
  | other => wrongType "char-or-string-p" other

/-- A text of `n` copies of a character; a negative count is none. -/
def copiesOf (c : Char) (n : Int64) : String := Format.copies c n.toInt.toNat

def insert : Primitive := fun _ args => do
  let out := String.join (← args.mapM insertionText)
  modifyCurrent (·.insert out)
  return .nil

/-- `(insert-char CHARACTER &optional COUNT)`. -/
def insertChar : Primitive := fun _ args => do
  atMost "insert-char" args 3
  let source ← match given? args 0 with
    | some v => insertionText v
    | none => pure ""
  let count ← countArg args 1
  modifyCurrent (·.insert (copiesOf (source.toList.headD ' ') count))
  return .nil

/-- `(newline &optional COUNT)`. -/
def newline : Primitive := fun _ args => do
  atMost "newline" args 2
  let count ← countArg args 0
  modifyCurrent (·.insert (copiesOf '\n' count))
  return .nil

def eraseBuffer : Primitive := fun _ args => do
  exactly "erase-buffer" args 0
  modifyCurrent (·.erase)
  return .nil

def deleteRegion : Primitive := binary "delete-region" fun first second => do
  let (start, stop) ← region first second
  modifyCurrent (·.deleteRegion start stop)
  return .nil

def deleteChar : Primitive := fun _ args => do
  between "delete-char" args 1 2
  let n ← integer (arg args 0)
  modifyCurrent (·.deleteChar n.toInt)
  return .nil

def deleteBlankLines : Primitive := fun _ args => do
  exactly "delete-blank-lines" args 0
  modifyCurrent (·.deleteBlankLines)
  return .nil

def substCharInRegion : Primitive := fun _ args => do
  between "subst-char-in-region" args 4 5
  let source ← insertionText (arg args 2)
  let target ← insertionText (arg args 3)
  match source.toList ++ target.toList with
  | c :: d :: _ =>
    let (start, stop) ← region (arg args 0) (arg args 1)
    modifyCurrent fun b => (b.substChar start stop c d).1
    return .nil
  | _ => wrongType "characterp" (arg args 2)

def untabify : Primitive := fun _ args => do
  between "untabify" args 2 3
  let (start, stop) ← region (arg args 0) (arg args 1)
  modifyCurrent (·.untabify start stop)
  return .nil

/-- `(indent-to COLUMN &optional MINIMUM)`. -/
def indentTo : Primitive := fun _ args => do
  between "indent-to" args 1 2
  let column ← natural (arg args 0)
  let minimum ← naturalOr 0 (given? args 1)
  modifyCurrent fun b => b.insert (Format.copies ' ' (max (column - b.column) minimum))
  return .ofNat (← currentBuffer).column

/-- Go to a column of the next line, making the line and the column where they are
missing. -/
def nextRow (b : Buffer) (column : Nat) : Buffer :=
  let stop := b.lineEnd b.point
  let b := if stop = b.size then (b.goto stop).insert "\n" else b.goto (stop + 1)
  let (b, reached) := b.moveToColumn column
  if reached < column then b.insert (Format.copies ' ' (column - reached)) else b

def insertRectangle : Primitive := unary "insert-rectangle" fun v => do
  let lines ← (← properList v).mapM string
  modifyCurrent fun b =>
    let column := b.column
    match lines with
    | [] => b
    | first :: rest => rest.foldl (fun b line => (nextRow b column).insert line) (b.insert first)
  return .nil

/-- `(append-to-buffer BUFFER START END)`: copy text of the current buffer to another
one. -/
def appendToBuffer : Primitive := fun _ args => do
  exactly "append-to-buffer" args 3
  let target ← match arg args 0 with
    | .str _ name => onWorkspace (·.getOrCreate name)
    | other => liveBuffer other
  let (start, stop) ← region (arg args 1) (arg args 2)
  let out := (← currentBuffer).substring start stop
  modifyBuffer target (·.insert out)
  return .nil

/-- `(insert-buffer-substring BUFFER &optional START END)`. -/
def insertBufferSubstring : Primitive := fun _ args => do
  between "insert-buffer-substring" args 1 3
  let source ← liveBuffer (arg args 0)
  match (← workspace).buffer? source with
  | none => error "Selecting deleted buffer"
  | some b =>
    let start ← match given? args 1 with
      | some v => offsetIn b v
      | none => pure 0
    let stop ← match given? args 2 with
      | some v => offsetIn b v
      | none => pure b.size
    modifyCurrent (·.insert (b.substring start stop))
    return .nil

def editing : List (String × Primitive) :=
  [("insert", insert), ("insert-char", insertChar), ("newline", newline),
   ("erase-buffer", eraseBuffer), ("delete-region", deleteRegion), ("delete-char", deleteChar),
   ("delete-blank-lines", deleteBlankLines), ("subst-char-in-region", substCharInRegion),
   ("untabify", untabify), ("indent-to", indentTo), ("insert-rectangle", insertRectangle),
   ("append-to-buffer", appendToBuffer), ("insert-buffer-substring", insertBufferSubstring)]

end EditorLisp.Primitives
