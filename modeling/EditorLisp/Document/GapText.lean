/-!
# Text with a gap

The characters of a buffer stand in one array with a gap at the place of the last edit,
so that runs of edits near one place do not shift the whole text.  Positions count
characters from zero and ignore the gap.

That the gap lies inside the array is part of the type.  The meaning of a text is the list
of its characters, `GapText.toList`.
-/

namespace EditorLisp

/-- A text with a gap. -/
structure GapText where
  /-- The characters, those in the gap being meaningless. -/
  chars : Array Char
  /-- Where the gap starts. -/
  gapStart : Nat
  /-- Where the text goes on after the gap. -/
  gapEnd : Nat
  start_le_end : gapStart ≤ gapEnd := by omega
  end_le_size : gapEnd ≤ chars.size := by omega

namespace GapText

/-- The size of a fresh gap, and the least by which a gap grows. -/
def gapUnit : Nat := 64

/-- The filler of the gap. -/
def filler : Char := Char.ofNat 0

/-- The text of a list of characters, with the gap at its end. -/
def ofArray (chars : Array Char) : GapText where
  chars := chars ++ Array.replicate gapUnit filler
  gapStart := chars.size
  gapEnd := chars.size + gapUnit
  end_le_size := by simp

def ofString (s : String) : GapText := ofArray s.toList.toArray

/-- The empty text. -/
def empty : GapText := ofArray #[]

instance : Inhabited GapText := ⟨empty⟩

/-- The number of places in the gap. -/
def gapSize (g : GapText) : Nat := g.gapEnd - g.gapStart

def size (g : GapText) : Nat := g.chars.size - g.gapSize

/-- The characters in order: the meaning of the text. -/
def toList (g : GapText) : List Char :=
  g.chars.toList.take g.gapStart ++ g.chars.toList.drop g.gapEnd

def toString (g : GapText) : String := String.ofList g.toList

def place (g : GapText) (pos : Nat) : Nat := if pos < g.gapStart then pos else pos + g.gapSize

def get? (g : GapText) (pos : Nat) : Option Char := g.chars[g.place pos]?

def range (g : GapText) (start stop : Nat) : List Char :=
  let before := (g.chars.extract start (min stop g.gapStart)).toList
  let after := (g.chars.extract (max start g.gapStart + g.gapSize) (stop + g.gapSize)).toList
  before ++ after

def set (g : GapText) (pos : Nat) (c : Char) : GapText :=
  { g with
    chars := g.chars.setIfInBounds (g.place pos) c
    end_le_size := by simpa using g.end_le_size }

/-- Replace the character at a position; false if there is none. -/
def replaceAt (g : GapText) (pos : Nat) (c : Char) : Bool × GapText :=
  if pos < g.size then (true, g.set pos c) else (false, g)

/-! ## Blocks -/

/-- Copy characters of an array from one place to another, the first one first. -/
def copyUp (chars : Array Char) (source target : Nat) : Nat → Array Char
  | 0 => chars
  | count + 1 =>
    copyUp (chars.setIfInBounds target (chars.getD source filler)) (source + 1) (target + 1) count

/-- Copy characters of an array from one place to another, the last one first. -/
def copyDown (chars : Array Char) (source target : Nat) : Nat → Array Char
  | 0 => chars
  | count + 1 =>
    copyDown (chars.setIfInBounds (target + count) (chars.getD (source + count) filler)) source
      target count

/-- Copy a block of characters within an array.  The two places may overlap: the order is
the one in which no character is overwritten before it is copied. -/
def copyWithin (chars : Array Char) (source count target : Nat) : Array Char :=
  if target ≤ source then copyUp chars source target count else copyDown chars source target count

def overwrite (chars : Array Char) (place : Nat) : List Char → Array Char
  | [] => chars
  | c :: rest => overwrite (chars.setIfInBounds place c) (place + 1) rest

@[simp]
theorem size_copyUp (chars : Array Char) (source target count : Nat) :
    (copyUp chars source target count).size = chars.size := by
  induction count generalizing chars source target with
  | zero => rfl
  | succ count ih => simp [copyUp, ih]

@[simp]
theorem size_copyDown (chars : Array Char) (source target count : Nat) :
    (copyDown chars source target count).size = chars.size := by
  induction count generalizing chars with
  | zero => rfl
  | succ count ih => simp [copyDown, ih]

@[simp]
theorem size_copyWithin (chars : Array Char) (source count target : Nat) :
    (copyWithin chars source count target).size = chars.size := by
  unfold copyWithin
  split <;> simp

@[simp]
theorem size_overwrite (chars : Array Char) (place : Nat) (text : List Char) :
    (overwrite chars place text).size = chars.size := by
  induction text generalizing chars place with
  | nil => rfl
  | cons c rest ih => simp [overwrite, ih]

/-! ## The gap -/

/-- Move the gap back to a position before it: the characters between go behind it. -/
def moveBack (g : GapText) (pos : Nat) (h : pos ≤ g.gapStart) : GapText :=
  let gap := g.gapSize
  { chars := copyWithin g.chars pos (g.gapStart - pos) (pos + gap)
    gapStart := pos
    gapEnd := pos + gap
    end_le_size := by
      have := g.start_le_end
      have := g.end_le_size
      simp only [gap, size_copyWithin, gapSize]
      omega }

/-- Move the gap on to a position after it: the characters between go before it. -/
def moveAhead (g : GapText) (pos : Nat) (h : pos ≤ g.size) : GapText :=
  let gap := g.gapSize
  { chars := copyWithin g.chars g.gapEnd (pos - g.gapStart) g.gapStart
    gapStart := pos
    gapEnd := pos + gap
    end_le_size := by
      have := g.start_le_end
      have := g.end_le_size
      simp only [size, gapSize] at h
      simp only [gap, size_copyWithin, gapSize]
      omega }

/-- Move the gap to a position of the text; there is no other place for it. -/
def moveGap (g : GapText) (pos : Nat) : GapText :=
  if pos = g.gapStart then g
  else if h : pos < g.gapStart then g.moveBack pos (Nat.le_of_lt h)
  else if h : pos ≤ g.size then g.moveAhead pos h
  else g

/-- By how much a gap that is too small grows. -/
def growth (g : GapText) (room : Nat) : Nat := max (room - g.gapSize) gapUnit

/-- Widen the gap to at least a given number of places. -/
def reserve (g : GapText) (room : Nat) : GapText :=
  if room ≤ g.gapSize then g
  else
    let more := g.growth room
    let start := g.gapStart
    let stop := g.gapEnd
    { chars := copyWithin (g.chars ++ Array.replicate more filler) stop (g.chars.size - stop)
        (stop + more)
      gapStart := start
      gapEnd := stop + more
      start_le_end := Nat.le_add_right_of_le g.start_le_end
      end_le_size := by
        have := g.end_le_size
        simp only [stop, size_copyWithin, Array.size_append, Array.size_replicate]
        omega }

/-- Write characters at the start of the gap, if it has room for them. -/
def fill (g : GapText) (text : List Char) : GapText :=
  if h : g.gapStart + text.length ≤ g.gapEnd then
    let start := g.gapStart
    let stop := g.gapEnd
    { chars := overwrite g.chars start text
      gapStart := start + text.length
      gapEnd := stop
      start_le_end := h
      end_le_size := by simpa using g.end_le_size }
  else g

/-! ## Editing -/

def insert (g : GapText) (pos : Nat) (text : List Char) : GapText :=
  if text.isEmpty then g else ((g.moveGap pos).reserve text.length).fill text

/-- Widen the gap by the characters after it. -/
def swallow (g : GapText) (count : Nat) : GapText :=
  if h : g.gapEnd + count ≤ g.chars.size then
    { g with
      gapEnd := g.gapEnd + count
      start_le_end := Nat.le_add_right_of_le g.start_le_end
      end_le_size := h }
  else g

def delete (g : GapText) (start stop : Nat) : GapText :=
  if start = stop then g else (g.moveGap start).swallow (stop - start)

end GapText

end EditorLisp
