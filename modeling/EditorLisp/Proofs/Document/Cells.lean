import EditorLisp.Proofs.Document.GapText

/-!
# Gap texts without promises

A `GapText` carries the proof that its gap lies inside its array, and its operations read
and write arrays in a way that cannot go wrong.  Here the same text is three bare fields, a
`Cells`, and every operation stops at a subtraction below zero, at an index or block that
reaches outside of the array, and at arguments outside of its bounds.  On the cells of a gap
text none of this happens as long as the arguments keep to the bounds, and the outcome is
the gap text that the total operation gives.

The last section runs sequences of operations on cells, on gap texts and on plain lists of
characters: all three answer alike.
-/

namespace EditorLisp

/-- The fields of a gap text. -/
structure Cells where
  chars : Array Char
  gapStart : Nat
  gapEnd : Nat

/-- A gap text without its proofs. -/
abbrev GapText.cells (g : GapText) : Cells := ⟨g.chars, g.gapStart, g.gapEnd⟩

namespace Cells

open GapText

/-! ## Partial operations -/

/-- A difference of natural numbers, if there is one. -/
def minus? (m n : Nat) : Option Nat := if n ≤ m then some (m - n) else none

/-- Part of an array. -/
def slice? (chars : Array Char) (start stop : Nat) : Option (List Char) :=
  if start ≤ stop ∧ stop ≤ chars.size then some (chars.extract start stop).toList else none

/-- Part of an array if it is wanted. -/
def sliceIf? (wanted : Bool) (chars : Array Char) (start stop : Nat) : Option (List Char) :=
  if wanted then slice? chars start stop else some []

/-- Copy a block within an array. -/
def copyWithin? (chars : Array Char) (source count target : Nat) : Option (Array Char) :=
  if source + count ≤ chars.size ∧ target + count ≤ chars.size then
    some (copyWithin chars source count target)
  else none

/-- Write a block into an array. -/
def overwrite? (chars : Array Char) (place : Nat) (text : List Char) : Option (Array Char) :=
  if place + text.length ≤ chars.size then some (overwrite chars place text) else none

/-- Write one character into an array. -/
def write? (chars : Array Char) (place : Nat) (c : Char) : Option (Array Char) :=
  if place < chars.size then some (chars.setIfInBounds place c) else none

/-- The number of places in the gap. -/
def gapSize? (c : Cells) : Option Nat := minus? c.gapEnd c.gapStart

/-- The number of characters. -/
def size? (c : Cells) : Option Nat := do minus? c.chars.size (← c.gapSize?)

/-- The place of a position. -/
def place? (c : Cells) (pos : Nat) : Option Nat := do
  if pos < c.gapStart then some pos else some (pos + (← c.gapSize?))

/-- The character at any position, if the text has one there. -/
def charAt? (c : Cells) (pos : Nat) : Option (Option Char) := do
  if (← c.size?) ≤ pos then some none else some <$> c.chars[← c.place? pos]?

/-- The characters between two positions of the text. -/
def range? (c : Cells) (start stop : Nat) : Option (List Char) := do
  if start ≤ stop ∧ stop ≤ (← c.size?) then
    let gap ← c.gapSize?
    let before ← sliceIf? (start < c.gapStart) c.chars start (min stop c.gapStart)
    let after ← sliceIf? (c.gapStart < stop) c.chars (max start c.gapStart + gap) (stop + gap)
    some (before ++ after)
  else none

/-- All characters. -/
def text? (c : Cells) : Option (List Char) := do
  some ((← slice? c.chars 0 c.gapStart) ++ (← slice? c.chars c.gapEnd c.chars.size))

/-- Move the gap. -/
def moveGap? (c : Cells) (pos : Nat) : Option Cells := do
  if pos = c.gapStart then some c
  else
    let gap ← c.gapSize?
    if pos < c.gapStart then
      let chars ← copyWithin? c.chars pos (c.gapStart - pos) (pos + gap)
      some ⟨chars, pos, pos + gap⟩
    else
      let chars ← copyWithin? c.chars c.gapEnd (pos - c.gapStart) c.gapStart
      some ⟨chars, pos, pos + gap⟩

/-- Widen the gap to at least a given number of places. -/
def reserve? (c : Cells) (room : Nat) : Option Cells := do
  let gap ← c.gapSize?
  if room ≤ gap then some c
  else
    let more := max (room - gap) gapUnit
    let after ← minus? c.chars.size c.gapEnd
    let wide := c.chars ++ Array.replicate more filler
    let chars ← copyWithin? wide c.gapEnd after (c.gapEnd + more)
    some ⟨chars, c.gapStart, c.gapEnd + more⟩

/-- Insert characters at a position of the text. -/
def insert? (c : Cells) (pos : Nat) (text : List Char) : Option Cells := do
  if pos ≤ (← c.size?) then
    if text.isEmpty then some c
    else
      let c ← (← c.moveGap? pos).reserve? text.length
      let chars ← overwrite? c.chars c.gapStart text
      some ⟨chars, c.gapStart + text.length, c.gapEnd⟩
  else none

/-- Delete the characters between two positions of the text. -/
def delete? (c : Cells) (start stop : Nat) : Option Cells := do
  if start ≤ stop ∧ stop ≤ (← c.size?) then
    if start = stop then some c
    else
      let c ← c.moveGap? start
      some ⟨c.chars, c.gapStart, c.gapEnd + (stop - start)⟩
  else none

/-- Replace the character at any position; false if the text has none there. -/
def replaceAt? (c : Cells) (pos : Nat) (new : Char) : Option (Bool × Cells) := do
  if (← c.size?) ≤ pos then some (false, c)
  else
    let chars ← write? c.chars (← c.place? pos) new
    some (true, ⟨chars, c.gapStart, c.gapEnd⟩)

/-! ## On gap texts -/

theorem minus?_eq {m n : Nat} (h : n ≤ m) : minus? m n = some (m - n) := if_pos h

theorem slice?_eq {chars : Array Char} {start stop : Nat} (ordered : start ≤ stop)
    (inside : stop ≤ chars.size) :
    slice? chars start stop = some (chars.extract start stop).toList :=
  if_pos ⟨ordered, inside⟩

/-- A part that is not wanted may be anywhere, as long as it is empty. -/
theorem sliceIf?_eq {wanted : Bool} {chars : Array Char} {start stop : Nat}
    (here : wanted = true → start ≤ stop ∧ stop ≤ chars.size)
    (skipped : wanted = false → stop ≤ start) :
    sliceIf? wanted chars start stop = some (chars.extract start stop).toList := by
  cases wanted with
  | true => exact slice?_eq (here rfl).1 (here rfl).2
  | false =>
      rw [Array.extract_empty_of_stop_le_start (skipped rfl)]
      rfl

theorem copyWithin?_eq {chars : Array Char} {source count target : Nat}
    (sourceInside : source + count ≤ chars.size) (targetInside : target + count ≤ chars.size) :
    copyWithin? chars source count target = some (copyWithin chars source count target) :=
  if_pos ⟨sourceInside, targetInside⟩

@[simp]
theorem gapSize?_cells (g : GapText) : g.cells.gapSize? = some g.gapSize :=
  minus?_eq g.start_le_end

@[simp]
theorem size?_cells (g : GapText) : g.cells.size? = some g.size := by
  have total := size_add_gapSize g
  simp only [size?, gapSize?_cells, Option.bind_eq_bind, Option.bind_some]
  exact minus?_eq (by omega)

@[simp]
theorem place?_cells (g : GapText) (pos : Nat) : g.cells.place? pos = some (g.place pos) := by
  simp only [place?, gapSize?_cells, Option.bind_eq_bind, Option.bind_some, place]
  split <;> rfl

theorem charAt?_cells (g : GapText) (pos : Nat) : g.cells.charAt? pos = some (g.get? pos) := by
  simp only [charAt?, size?_cells, place?_cells, Option.bind_eq_bind,
    Option.bind_some]
  split
  next past => rw [get?_eq_none g pos past]
  next before =>
      have inside := (place_lt_size g pos).mpr (by omega)
      rw [get?, Array.getElem?_eq_getElem inside]
      rfl

theorem range?_cells (g : GapText) (start stop : Nat) (ordered : start ≤ stop)
    (inside : stop ≤ g.size) : g.cells.range? start stop = some (g.range start stop) := by
  have total := size_add_gapSize g
  have gapEnds := gapStart_add_gapSize g
  simp only [range?, size?_cells, gapSize?_cells, Option.bind_eq_bind, Option.bind_some]
  rw [if_pos ⟨ordered, inside⟩]
  rw [sliceIf?_eq (by simp only [decide_eq_true_eq]; omega)
    (by simp only [decide_eq_false_iff_not]; omega)]
  rw [Option.bind_some, sliceIf?_eq (by simp only [decide_eq_true_eq]; omega)
    (by simp only [decide_eq_false_iff_not]; omega)]
  rfl

theorem text?_cells (g : GapText) : g.cells.text? = some g.toList := by
  have ordered := g.start_le_end
  have inside := g.end_le_size
  have tailLength : (g.chars.toList.drop g.gapEnd).length ≤ g.chars.size - g.gapEnd := by
    simp
  simp only [text?, Option.bind_eq_bind]
  rw [slice?_eq (Nat.zero_le _) (by omega), slice?_eq inside (Nat.le_refl _)]
  simp [toList, List.take_of_length_le tailLength]

theorem moveGap?_cells (g : GapText) (pos : Nat) (h : pos ≤ g.size) :
    g.cells.moveGap? pos = some (g.moveGap pos).cells := by
  have total := size_add_gapSize g
  have inside := g.end_le_size
  have gapEnds := gapStart_add_gapSize g
  simp only [moveGap?, gapSize?_cells, cells,
    Option.bind_eq_bind, Option.bind_some]
  unfold moveGap
  by_cases there : pos = g.gapStart
  · rw [if_pos there, if_pos there]
  · rw [if_neg there, if_neg there]
    by_cases back : pos < g.gapStart
    · rw [if_pos back, dif_pos back, copyWithin?_eq (by omega) (by omega)]
      rfl
    · rw [if_neg back, dif_neg back, dif_pos h, copyWithin?_eq (by omega) (by omega)]
      rfl

theorem reserve?_cells (g : GapText) (room : Nat) :
    g.cells.reserve? room = some (g.reserve room).cells := by
  have inside := g.end_le_size
  simp only [reserve?, gapSize?_cells, cells,
    Option.bind_eq_bind, Option.bind_some]
  unfold reserve
  by_cases enough : room ≤ g.gapSize
  · rw [if_pos enough, if_pos enough]
  · rw [if_neg enough, if_neg enough, minus?_eq inside, Option.bind_some,
      copyWithin?_eq (by rw [Array.size_append]; omega)
        (by rw [Array.size_append, Array.size_replicate]; omega)]
    rfl

theorem insert?_cells (g : GapText) (pos : Nat) (text : List Char) (h : pos ≤ g.size) :
    g.cells.insert? pos text = some (g.insert pos text).cells := by
  simp only [insert?, size?_cells, Option.bind_eq_bind, Option.bind_some]
  rw [if_pos h, GapText.insert]
  split
  · rfl
  · have room := le_gapSize_reserve (g.moveGap pos) text.length
    have gapEnds := gapStart_add_gapSize ((g.moveGap pos).reserve text.length)
    have inside := ((g.moveGap pos).reserve text.length).end_le_size
    rw [moveGap?_cells g pos h, Option.bind_some, reserve?_cells, Option.bind_some, fill,
      dif_pos (by omega), overwrite?]
    simp only [cells]
    rw [if_pos (by omega)]
    rfl

theorem delete?_cells (g : GapText) (start stop : Nat) (ordered : start ≤ stop)
    (inside : stop ≤ g.size) : g.cells.delete? start stop = some (g.delete start stop).cells := by
  simp only [delete?, size?_cells, Option.bind_eq_bind, Option.bind_some]
  rw [if_pos ⟨ordered, inside⟩, delete]
  split
  · rfl
  · have moved := gapStart_moveGap g start (by omega)
    have gapEnds := gapStart_add_gapSize (g.moveGap start)
    have total := size_add_gapSize (g.moveGap start)
    rw [size_moveGap] at total
    rw [moveGap?_cells g start (by omega), swallow, dif_pos (by omega)]
    rfl

theorem replaceAt?_cells (g : GapText) (pos : Nat) (new : Char) :
    g.cells.replaceAt? pos new =
      some ((g.replaceAt pos new).1, (g.replaceAt pos new).2.cells) := by
  simp only [replaceAt?, size?_cells, place?_cells, Option.bind_eq_bind,
    Option.bind_some]
  unfold replaceAt
  by_cases there : pos < g.size
  · rw [if_neg (by omega), if_pos there, write?, if_pos ((place_lt_size g pos).mpr there)]
    rfl
  · rw [if_pos (by omega), if_neg there]

end Cells

/-! ## Runs -/

/-- An operation on a text. -/
inductive TextCall where
  | insert (pos : Nat) (text : List Char)
  | delete (start stop : Nat)
  | replaceAt (pos : Nat) (c : Char)
  | charAt (pos : Nat)
  | range (start stop : Nat)
  | size
deriving DecidableEq

/-- What an operation on a text answers. -/
inductive TextReply where
  | done
  | truth (b : Bool)
  | char? (c : Option Char)
  | chars (text : List Char)
  | count (n : Nat)
deriving DecidableEq

namespace TextCall

/-- The operation on a list of characters. -/
def onList : TextCall → List Char → TextReply × List Char
  | insert pos text, l => (.done, l.take pos ++ text ++ l.drop pos)
  | delete start stop, l => (.done, l.take start ++ l.drop stop)
  | replaceAt pos c, l => (.truth (decide (pos < l.length)), l.set pos c)
  | charAt pos, l => (.char? l[pos]?, l)
  | range start stop, l => (.chars ((l.drop start).take (stop - start)), l)
  | size, l => (.count l.length, l)

/-- The operation on a gap text. -/
def onText : TextCall → GapText → TextReply × GapText
  | insert pos text, g => (.done, g.insert pos text)
  | delete start stop, g => (.done, g.delete start stop)
  | replaceAt pos c, g => (.truth (g.replaceAt pos c).1, (g.replaceAt pos c).2)
  | charAt pos, g => (.char? (g.get? pos), g)
  | range start stop, g => (.chars (g.range start stop), g)
  | size, g => (.count g.size, g)

/-- The operation on cells. -/
def onCells? : TextCall → Cells → Option (TextReply × Cells)
  | insert pos text, c => do some (.done, ← c.insert? pos text)
  | delete start stop, c => do some (.done, ← c.delete? start stop)
  | replaceAt pos new, c => do
    let (found, c) ← c.replaceAt? pos new
    some (.truth found, c)
  | charAt pos, c => do some (.char? (← c.charAt? pos), c)
  | range start stop, c => do some (.chars (← c.range? start stop), c)
  | size, c => do some (.count (← c.size?), c)

/-- The bounds of the arguments.  Single characters may be asked for and replaced anywhere. -/
def InBounds : TextCall → List Char → Prop
  | insert pos _, l => pos ≤ l.length
  | delete start stop, l => start ≤ stop ∧ stop ≤ l.length
  | range start stop, l => start ≤ stop ∧ stop ≤ l.length
  | _, _ => True

instance (call : TextCall) (l : List Char) : Decidable (call.InBounds l) := by
  cases call <;> unfold InBounds <;> infer_instance

/-- Make operations one after the other and collect the answers. -/
def run {σ : Type} (step : TextCall → σ → TextReply × σ) :
    List TextCall → σ → List TextReply × σ
  | [], s => ([], s)
  | call :: calls, s =>
    let (reply, s) := step call s
    let (replies, s) := run step calls s
    (reply :: replies, s)

/-- Make operations one after the other as long as none of them stops. -/
def run? {σ : Type} (step : TextCall → σ → Option (TextReply × σ)) :
    List TextCall → σ → Option (List TextReply × σ)
  | [], s => some ([], s)
  | call :: calls, s => do
    let (reply, s) ← step call s
    let (replies, s) ← run? step calls s
    some (reply :: replies, s)

/-- Every operation keeps to its bounds at the time it is made. -/
def AllInBounds : List TextCall → List Char → Prop
  | [], _ => True
  | call :: calls, l => call.InBounds l ∧ AllInBounds calls (call.onList l).2

instance decidableAllInBounds :
    (calls : List TextCall) → (l : List Char) → Decidable (AllInBounds calls l)
  | [], _ => isTrue trivial
  | _ :: calls, _ => @instDecidableAnd _ _ _ (decidableAllInBounds calls _)

/-- An operation within its bounds does to a gap text what it does to its list. -/
theorem onText_eq_onList (call : TextCall) (g : GapText) (h : call.InBounds g.toList) :
    (call.onText g).1 = (call.onList g.toList).1 ∧
      (call.onText g).2.toList = (call.onList g.toList).2 := by
  cases call with
  | insert pos text =>
      have inside : pos ≤ g.size := by simpa [InBounds] using h
      exact ⟨rfl, GapText.toList_insert g pos text inside⟩
  | delete start stop =>
      have inside : start ≤ stop ∧ stop ≤ g.size := by simpa [InBounds] using h
      exact ⟨rfl, GapText.toList_delete g start stop inside.1 inside.2⟩
  | replaceAt pos c =>
      refine ⟨?_, GapText.toList_replaceAt g pos c⟩
      simp only [onText, onList, GapText.length_toList, GapText.replaceAt]
      by_cases there : pos < g.size
      · simp only [if_pos there, decide_eq_true there]
      · simp only [if_neg there, decide_eq_false there]
  | charAt pos =>
      exact ⟨congrArg TextReply.char? (GapText.getElem?_toList g pos).symm, rfl⟩
  | range start stop =>
      have inside : start ≤ stop ∧ stop ≤ g.size := by simpa [InBounds] using h
      exact ⟨congrArg TextReply.chars (GapText.range_eq g start stop inside.1 inside.2), rfl⟩
  | size =>
      exact ⟨congrArg TextReply.count (GapText.length_toList g).symm, rfl⟩

/-- An operation within its bounds does not stop on the cells of a gap text. -/
theorem onCells?_cells (call : TextCall) (g : GapText) (h : call.InBounds g.toList) :
    call.onCells? g.cells = some ((call.onText g).1, (call.onText g).2.cells) := by
  cases call with
  | insert pos text =>
      have inside : pos ≤ g.size := by simpa [InBounds] using h
      simp only [onCells?, Cells.insert?_cells g pos text inside]
      rfl
  | delete start stop =>
      have inside : start ≤ stop ∧ stop ≤ g.size := by simpa [InBounds] using h
      simp only [onCells?, Cells.delete?_cells g start stop inside.1 inside.2]
      rfl
  | replaceAt pos c =>
      simp only [onCells?, Cells.replaceAt?_cells]
      rfl
  | charAt pos =>
      simp only [onCells?, Cells.charAt?_cells]
      rfl
  | range start stop =>
      have inside : start ≤ stop ∧ stop ≤ g.size := by simpa [InBounds] using h
      simp only [onCells?, Cells.range?_cells g start stop inside.1 inside.2]
      rfl
  | size =>
      simp only [onCells?, Cells.size?_cells]
      rfl

theorem run_onText (calls : List TextCall) (g : GapText) (bounds : AllInBounds calls g.toList) :
    (run onText calls g).1 = (run onList calls g.toList).1 ∧
      (run onText calls g).2.toList = (run onList calls g.toList).2 := by
  induction calls generalizing g with
  | nil => exact ⟨rfl, rfl⟩
  | cons call calls ih =>
      obtain ⟨sameReply, sameText⟩ := onText_eq_onList call g bounds.1
      obtain ⟨sameReplies, sameEnd⟩ := ih (call.onText g).2 (sameText ▸ bounds.2)
      rw [sameText] at sameReplies sameEnd
      exact ⟨congrArg₂ List.cons sameReply sameReplies, sameEnd⟩

theorem run?_onCells? (calls : List TextCall) (g : GapText)
    (bounds : AllInBounds calls g.toList) :
    run? onCells? calls g.cells =
      some ((run onText calls g).1, (run onText calls g).2.cells) := by
  induction calls generalizing g with
  | nil => rfl
  | cons call calls ih =>
      have sameText := (onText_eq_onList call g bounds.1).2
      simp only [run?, onCells?_cells call g bounds.1, Option.bind_eq_bind, Option.bind_some,
        ih (call.onText g).2 (sameText ▸ bounds.2)]
      rfl

/-- A text with a gap is a list of characters: started from any text and given any
operations within their bounds, it answers as the list does and ends as the list, its gap
lies inside its array, and no subtraction, index or block on the way goes out of range. -/
theorem run_eq_run_list (initial : String) (calls : List TextCall)
    (bounds : AllInBounds calls initial.toList) :
    ∃ (text : GapText) (cells : Cells),
      run onText calls (GapText.ofString initial) =
        ((run onList calls initial.toList).1, text) ∧
      text.toList = (run onList calls initial.toList).2 ∧
      text.size = (run onList calls initial.toList).2.length ∧
      text.cells = cells ∧
      run? onCells? calls (GapText.ofString initial).cells =
        some ((run onList calls initial.toList).1, cells) ∧
      cells.text? = some (run onList calls initial.toList).2 ∧
      cells.size? = some (run onList calls initial.toList).2.length ∧
      cells.gapStart ≤ cells.gapEnd ∧ cells.gapEnd ≤ cells.chars.size := by
  have start : (GapText.ofString initial).toList = initial.toList :=
    GapText.toList_ofString initial
  obtain ⟨sameReplies, sameText⟩ := run_onText calls (GapText.ofString initial) (start ▸ bounds)
  have sameCells := run?_onCells? calls (GapText.ofString initial) (start ▸ bounds)
  rw [start] at sameReplies sameText
  generalize run onText calls (GapText.ofString initial) = outcome at *
  obtain ⟨replies, text⟩ := outcome
  have sameSize : text.size = (run onList calls initial.toList).2.length := by
    rw [← sameText, GapText.length_toList]
  refine ⟨text, text.cells, ?_, sameText, sameSize, rfl, ?_, ?_, ?_, text.start_le_end,
    text.end_le_size⟩
  · rw [← sameReplies]
  · rw [sameCells, sameReplies]
  · rw [Cells.text?_cells, sameText]
  · rw [Cells.size?_cells, sameSize]

/-- A gap that grows, edits on either side of it, and a position past the end. -/
theorem run_eq_run_list_hello :
    AllInBounds [.insert 5 (List.replicate 70 '-'), .delete 0 5, .replaceAt 0 '+', .range 0 2,
        .charAt 99, .size] "hello world".toList ∧
      ∃ text : GapText,
        run onText [.insert 5 (List.replicate 70 '-'), .delete 0 5, .replaceAt 0 '+', .range 0 2,
            .charAt 99, .size] (GapText.ofString "hello world") =
          ([.done, .done, .truth true, .chars ['+', '-'], .char? none, .count 76], text) ∧
        text.toList = '+' :: List.replicate 69 '-' ++ " world".toList := by
  have bounds : AllInBounds [.insert 5 (List.replicate 70 '-'), .delete 0 5, .replaceAt 0 '+',
      .range 0 2, .charAt 99, .size] "hello world".toList := by decide
  obtain ⟨text, _, outcome, sameText, _⟩ := run_eq_run_list "hello world" _ bounds
  exact ⟨bounds, text, outcome, sameText⟩

end TextCall

end EditorLisp
