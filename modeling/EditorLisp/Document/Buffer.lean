import EditorLisp.Document.GapText
import EditorLisp.Number.Literal
import EditorLisp.Table
import EditorLisp.Text.CharClass
import EditorLisp.Value

/-!
# Buffers

A buffer is a named text with a point, variables and hooks of its own, and perhaps a
keymap.  Positions count characters from zero; those past the end are brought back to it.
Every operation here is a pure function from a buffer to a buffer, paired with an answer
where there is one.
-/

namespace EditorLisp

/-- A named text with a point. -/
structure Buffer where
  id : Nat
  name : String
  text : GapText := .empty
  /-- The position of the point. -/
  point : Nat := 0
  /-- The keymap installed by a mode. -/
  localMap : Option Value := none
  /-- Variables with a value of their own in this buffer. -/
  locals : Table String Value := {}
  /-- Hook functions of this buffer, by hook. -/
  hooks : Table String (List Value) := {}
  /-- Whether the text was changed. -/
  modified : Bool := false
deriving Inhabited

namespace Buffer

def size (b : Buffer) : Nat := b.text.size

def content (b : Buffer) : String := b.text.toString

def clamp (b : Buffer) (pos : Nat) : Nat := min pos b.size

/-- Two positions, clamped and in order. -/
def ordered (b : Buffer) (x y : Nat) : Nat × Nat :=
  let x := b.clamp x
  let y := b.clamp y
  if x ≤ y then (x, y) else (y, x)

def goto (b : Buffer) (pos : Nat) : Buffer := { b with point := b.clamp pos }

/-- The character after a position. -/
def charAfter? (b : Buffer) (pos : Nat) : Option Char := b.text.get? pos

/-- The character before a position. -/
def charBefore? (b : Buffer) : Nat → Option Char
  | 0 => none
  | pos + 1 => b.text.get? pos

/-- The text between two positions, in either order. -/
def substring (b : Buffer) (x y : Nat) : String :=
  let (start, stop) := b.ordered x y
  String.ofList (b.text.range start stop)

/-! ## Editing -/

/-- Insert at the point and leave the point after the new text. -/
def insert (b : Buffer) (s : String) : Buffer :=
  { b with
    text := b.text.insert b.point s.toList
    point := b.point + s.length
    modified := true }

/-- Insert at a position; a point after it moves along. -/
def insertAt (b : Buffer) (pos : Nat) (s : String) : Buffer :=
  let pos := b.clamp pos
  { b with
    text := b.text.insert pos s.toList
    point := if pos < b.point then b.point + s.length else b.point
    modified := true }

/-- Delete the text between two positions, in either order. -/
def deleteRegion (b : Buffer) (x y : Nat) : Buffer :=
  let (start, stop) := b.ordered x y
  { b with
    text := b.text.delete start stop
    point :=
      if stop ≤ b.point then b.point - (stop - start)
      else if start < b.point then start
      else b.point
    modified := b.modified || start != stop }

/-- Delete the text between two positions; the answer is the text that was there. -/
def cutRegion (b : Buffer) (x y : Nat) : Buffer × String := (b.deleteRegion x y, b.substring x y)

/-- Replace the text between two positions.  A point behind it moves by the difference in
length, a point inside it goes to its start. -/
def replaceRegion (b : Buffer) (x y : Nat) (s : String) : Buffer :=
  let (start, stop) := b.ordered x y
  (b.deleteRegion start stop).insertAt start s

def erase (b : Buffer) : Buffer :=
  { b with text := b.text.delete 0 b.size, point := 0, modified := true }

/-- Delete characters after the point, or before it for a negative count. -/
def deleteChar (b : Buffer) (n : Int) : Buffer :=
  if 0 ≤ n then b.deleteRegion b.point (b.point + n.toNat)
  else b.deleteRegion (b.point - (-n).toNat) b.point

/-- Replace one character by another at a number of positions, counting replacements. -/
def substFrom (text : GapText) (source target : Char) (pos : Nat) : Nat → Nat → GapText × Nat
  | 0, changed => (text, changed)
  | room + 1, changed =>
    if text.get? pos = some source then
      substFrom (text.replaceAt pos target).2 source target (pos + 1) room (changed + 1)
    else substFrom text source target (pos + 1) room changed

/-- Replace one character by another between two positions; the answer is the number of
replacements. -/
def substChar (b : Buffer) (x y : Nat) (source target : Char) : Buffer × Nat :=
  let (start, stop) := b.ordered x y
  let (text, changed) := substFrom b.text source target start (stop - start) 0
  ({ b with text, modified := b.modified || changed != 0 }, changed)

def untabify (b : Buffer) (x y : Nat) : Buffer := (b.substChar x y '\t' ' ').1

/-! ## Lines and columns -/

def lineStartFrom (b : Buffer) : Nat → Nat
  | 0 => 0
  | pos + 1 => if b.text.get? pos = some '\n' then pos + 1 else lineStartFrom b pos

def lineStart (b : Buffer) (pos : Nat) : Nat := b.lineStartFrom (b.clamp pos)

/-- The end of the line that holds a position, looking at a bounded number of
characters. -/
def lineEndFrom (b : Buffer) : Nat → Nat → Nat
  | 0, pos => pos
  | room + 1, pos => if b.text.get? pos = some '\n' then pos else lineEndFrom b room (pos + 1)

def lineEnd (b : Buffer) (pos : Nat) : Nat := b.lineEndFrom (b.size - pos) (b.clamp pos)

/-- The distance of the point from the start of its line. -/
def column (b : Buffer) : Nat := b.point - b.lineStart b.point

/-- Move to a column of the next line; false at the last line. -/
def lineDown (b : Buffer) (column : Nat) : Buffer × Bool :=
  let stop := b.lineEnd b.point
  if b.size ≤ stop then ({ b with point := b.size }, false)
  else ({ b with point := min (stop + 1 + column) (b.lineEnd (stop + 1)) }, true)

/-- Move to a column of the line before; false at the first line. -/
def lineUp (b : Buffer) (column : Nat) : Buffer × Bool :=
  match b.lineStart b.point with
  | 0 => ({ b with point := 0 }, false)
  | start + 1 =>
    let previous := b.lineStart start
    ({ b with point := min (previous + column) (b.lineEnd previous) }, true)

/-- Repeat a line movement; the answer is the number of lines that could not be moved. -/
def moveLines (step : Buffer → Buffer × Bool) : Nat → Buffer → Buffer × Nat
  | 0, b => (b, 0)
  | n + 1, b =>
    match step b with
    | (b, true) => moveLines step n b
    | (b, false) => (b, n + 1)

/-- Move down, or up for a negative count, keeping the column where the line is long
enough.  The answer is the number of lines that could not be moved. -/
def forwardLine (b : Buffer) (n : Int) : Buffer × Nat :=
  let column := b.column
  if 0 ≤ n then moveLines (·.lineDown column) n.toNat b
  else moveLines (·.lineUp column) (-n).toNat b

/-- Go to a column of the current line, but not past its end. -/
def moveToColumn (b : Buffer) (column : Nat) : Buffer × Nat :=
  let start := b.lineStart b.point
  let target := min (start + column) (b.lineEnd b.point)
  ({ b with point := target }, target - start)

/-- The same for any column.  Where it would be, were the line long enough, has to be a position
that a machine word holds, as it is for the columns that programs can name. -/
def moveToColumn? (b : Buffer) (column : Nat) : Option (Buffer × Nat) :=
  if b.lineStart b.point + column < Number.twoTo 64 then some (b.moveToColumn column) else none

def countLines (b : Buffer) (x y : Nat) : Nat :=
  let (start, stop) := b.ordered x y
  (b.text.range start stop).count '\n'

/-- Whether the line that starts at a position holds blanks only. -/
def isBlankLine (b : Buffer) (start : Nat) : Bool :=
  (b.substring start (b.lineEnd start)).toList.all Text.isBlank

/-- The start of the first of a run of blank lines that ends before a line start. -/
def firstBlank (b : Buffer) : Nat → Nat → Nat
  | 0, start => start
  | _, 0 => 0
  | fuel + 1, start + 1 =>
    let previous := b.lineStart start
    if b.isBlankLine previous then firstBlank b fuel previous else start + 1

/-- The end of the last of a run of blank lines that starts after a line end. -/
def lastBlank (b : Buffer) : Nat → Nat → Nat
  | 0, stop => stop
  | fuel + 1, stop =>
    if stop < b.size && b.isBlankLine (stop + 1) then lastBlank b fuel (b.lineEnd (stop + 1))
    else stop

/-- Delete blank lines around the point.  On a blank line one of the run is kept, or none
if it stands alone; on any other line the blank lines that follow go. -/
def deleteBlankLines (b : Buffer) : Buffer :=
  let start := b.lineStart b.point
  let stop := b.lineEnd start
  let last := b.lastBlank (b.size + 1) stop
  if b.isBlankLine start then
    let first := b.firstBlank (b.size + 1) start
    if first = start ∧ last = stop then b.deleteRegion start (min (last + 1) b.size)
    else { b.deleteRegion (b.lineEnd first) last with point := first }
  else if stop < last then b.deleteRegion stop last
  else b

/-! ## Characters and words -/

/-- Move forward by characters, or back for a negative count; false when the end of the
text was in the way.  The target has to fit a machine word. -/
def forwardChar? (b : Buffer) (n : Int64) : Option (Buffer × Bool) := do
  let target := (← Number.fixed? (b.point + n.toInt)).toInt
  let reached : Int := max 0 (min target b.size)
  some ({ b with point := reached.toNat }, reached == target)

/-- The first position at or after `pos`, at most `room` further, whose character fails a
test. -/
def skipAhead (b : Buffer) (accept : Char → Bool) : Nat → Nat → Nat
  | 0, pos => pos
  | room + 1, pos => if (b.charAfter? pos).any accept then skipAhead b accept room (pos + 1) else pos

/-- The last position at or before `pos`, at most `room` back, before which a character
fails a test. -/
def skipBack (b : Buffer) (accept : Char → Bool) : Nat → Nat → Nat
  | 0, pos => pos
  | _, 0 => 0
  | room + 1, pos + 1 =>
    if (b.charBefore? (pos + 1)).any accept then skipBack b accept room pos else pos + 1

/-- Move over characters that pass a test, up to a limit; the answer is the distance. -/
def skipForward (b : Buffer) (accept : Char → Bool) (limit : Nat) : Buffer × Nat :=
  let target := b.skipAhead accept (b.clamp limit - b.point) b.point
  ({ b with point := target }, target - b.point)

/-- Move back over characters that pass a test, down to a limit; the answer is the
distance. -/
def skipBackward (b : Buffer) (accept : Char → Bool) (limit : Nat) : Buffer × Nat :=
  let target := b.skipBack accept (b.point - b.clamp limit) b.point
  ({ b with point := target }, b.point - target)

def wordEnd (b : Buffer) (pos : Nat) : Nat :=
  let start := b.skipAhead (fun c => !Text.isBufferWord c) (b.size - pos) pos
  b.skipAhead Text.isBufferWord (b.size - start) start

/-- The start of the word before. -/
def wordStart (b : Buffer) (pos : Nat) : Nat :=
  b.skipBack Text.isBufferWord pos (b.skipBack (fun c => !Text.isBufferWord c) pos pos)

def forwardWord (b : Buffer) (n : Nat) : Buffer :=
  { b with point := (min n (b.size + 1)).repeat b.wordEnd b.point }

def backwardWord (b : Buffer) (n : Nat) : Buffer :=
  { b with point := (min n (b.size + 1)).repeat b.wordStart b.point }

/-! ## Local variables and hooks -/

def local? (b : Buffer) (name : String) : Option Value := b.locals.get? name

def setLocal (b : Buffer) (name : String) (value : Value) : Buffer :=
  { b with locals := b.locals.insert name value }

def killLocal (b : Buffer) (name : String) : Buffer := { b with locals := b.locals.erase name }

def hooksOf (b : Buffer) (hook : String) : List Value := (b.hooks.get? hook).getD []

/-- Put a function on a hook unless it is there. -/
def addHook (b : Buffer) (hook : String) (function : Value) (append : Bool) : Buffer :=
  let present := b.hooksOf hook
  let present :=
    if present.any (·.same function) then present
    else if append then present ++ [function] else function :: present
  { b with hooks := b.hooks.insert hook present }

def removeHook (b : Buffer) (hook : String) (function : Value) : Buffer :=
  { b with hooks := b.hooks.modify hook fun fs => fs.filter fun f => !f.same function }

end Buffer

end EditorLisp
