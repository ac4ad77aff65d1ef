import EditorLisp.Proofs.Document.Buffer
import Mathlib.Data.List.Basic

/-!
# Lines

Newlines divide a text into lines.  A position of the text is a column of one of them, from the
column before its first character to the one after its last.  Seen from such a position the text
falls into the lines above, each with the newline after it, the line itself, and the lines below,
each with the newline before it.  Where a line starts and ends, and where the point comes to when it
moves up or down, is said here in these terms.
-/

namespace EditorLisp

namespace Text

/-- The lines of a text.  There is one more than there are newlines, so a text that ends in a
newline has an empty last line, and the empty text has a line. -/
def lines (text : List Char) : List (List Char) := text.splitOn '\n'

/-- The text of lines that others follow: each has a newline after it. -/
def ended (lines : List (List Char)) : List Char := lines.flatMap (· ++ ['\n'])

/-- The text of lines that follow others: each has a newline before it. -/
def begun (lines : List (List Char)) : List Char := lines.flatMap ('\n' :: ·)

variable {text line : List Char} {above below : List (List Char)}

@[simp]
theorem ended_nil : ended [] = [] := rfl

theorem ended_cons (line : List Char) (lines : List (List Char)) :
    ended (line :: lines) = line ++ '\n' :: ended lines := by
  simp [ended]

theorem ended_concat (lines : List (List Char)) (line : List Char) :
    ended (lines ++ [line]) = ended lines ++ line ++ ['\n'] := by
  simp [ended]

@[simp]
theorem begun_nil : begun [] = [] := rfl

@[simp]
theorem begun_cons (line : List Char) (lines : List (List Char)) :
    begun (line :: lines) = '\n' :: (line ++ begun lines) :=
  List.flatMap_cons

/-- There is no newline in a line. -/
theorem newline_notMem (isLine : line ∈ lines text) : '\n' ∉ line := by
  induction text generalizing line with
  | nil =>
      rw [lines, List.splitOn_nil, List.mem_singleton] at isLine
      rw [isLine]
      exact List.not_mem_nil
  | cons c rest ih =>
      rw [lines, List.splitOn_cons_eq_if_modifyHead] at isLine
      split at isLine
      next =>
          rcases List.mem_cons.mp isLine with rfl | further
          · exact List.not_mem_nil
          · exact ih further
      next other =>
          obtain ⟨first, more, split⟩ := List.exists_cons_of_ne_nil (List.splitOn_ne_nil '\n' rest)
          have isPlain : ∀ l ∈ first :: more, '\n' ∉ l := by
            intro l isLine
            apply ih
            rwa [lines, split]
          rw [split, List.modifyHead_cons] at isLine
          rcases List.mem_cons.mp isLine with rfl | further
          · intro inside
            rcases List.mem_cons.mp inside with rfl | later
            · exact other BEq.rfl
            · exact isPlain first List.mem_cons_self later
          · exact isPlain line (List.mem_cons_of_mem _ further)

/-- Lines that are put together are the lines of the text. -/
theorem lines_join (plain : ∀ l ∈ above ++ line :: below, '\n' ∉ l) :
    lines (ended above ++ line ++ begun below) = above ++ line :: below := by
  induction above with
  | nil =>
      rw [ended_nil, List.nil_append, List.nil_append]
      induction below generalizing line with
      | nil =>
          rw [begun_nil, List.append_nil]
          exact List.splitOn_eq_singleton (plain line List.mem_cons_self)
      | cons next below ih =>
          have isPlain : '\n' ∉ line := plain line List.mem_cons_self
          rw [begun_cons, lines, List.splitOn_append_cons_self_of_not_mem isPlain]
          exact congrArg (line :: ·) (ih fun l isLine => plain l (List.mem_cons_of_mem _ isLine))
  | cons first above ih =>
      have isPlain : '\n' ∉ first := plain first List.mem_cons_self
      rw [ended_cons, List.append_assoc, List.append_assoc, List.cons_append, lines,
        List.splitOn_append_cons_self_of_not_mem isPlain, ← List.append_assoc]
      exact congrArg (first :: ·) (ih fun l isLine => plain l (List.mem_cons_of_mem _ isLine))

/-- Texts with the same lines are the same. -/
theorem lines_injective : Function.Injective lines := by
  intro first second same
  have joined (text : List Char) : ['\n'].intercalate (lines text) = text :=
    List.intercalate_splitOn '\n'
  rw [← joined first, ← joined second]
  exact congrArg _ same

theorem lines_eq_iff :
    lines text = above ++ line :: below ↔
      text = ended above ++ line ++ begun below ∧ ∀ l ∈ above ++ line :: below, '\n' ∉ l := by
  constructor
  · intro split
    have plain : ∀ l ∈ above ++ line :: below, '\n' ∉ l :=
      fun l isLine => newline_notMem (split ▸ isLine)
    exact ⟨lines_injective (split.trans (lines_join plain).symm), plain⟩
  · rintro ⟨rfl, plain⟩
    exact lines_join plain

end Text

namespace Buffer

/-- The lines of a buffer. -/
def lines (b : Buffer) : List (List Char) := Text.lines b.text.toList

/-- A position is at a column of a line, with other lines above it and below it. -/
structure StandsAt (b : Buffer) (above : List (List Char)) (line : List Char)
    (below : List (List Char)) (column pos : Nat) : Prop where
  lines_eq : b.lines = above ++ line :: below
  column_le : column ≤ line.length
  pos_eq : pos = (Text.ended above).length + column

variable {b : Buffer} {above below : List (List Char)} {line next : List Char}
  {column pos goal : Nat}

/-- Every position of the text is at a column of a line: what the last line before the position and
the first line after it make up. -/
theorem exists_standsAt (inside : pos ≤ b.size) :
    ∃ above line below column, b.StandsAt above line below column pos := by
  let front := b.text.toList.take pos
  let back := b.text.toList.drop pos
  have frontLength : front.length = pos := b.text.length_take_toList inside
  obtain ⟨above, start, splitFront⟩ : ∃ above start, Text.lines front = above ++ [start] :=
    (Text.lines front).eq_nil_or_concat'.resolve_left (List.splitOn_ne_nil '\n' front)
  obtain ⟨rest, below, splitBack⟩ : ∃ rest below, Text.lines back = [] ++ rest :: below :=
    List.exists_cons_of_ne_nil (List.splitOn_ne_nil '\n' back)
  obtain ⟨frontEq, frontPlain⟩ := Text.lines_eq_iff.mp splitFront
  obtain ⟨backEq, backPlain⟩ := Text.lines_eq_iff.mp splitBack
  -- the position is inside of one line, the end of the front and the start of the back together
  have startPlain := frontPlain start (List.mem_append_right _ List.mem_cons_self)
  have restPlain := backPlain rest List.mem_cons_self
  rw [Text.begun_nil, List.append_nil] at frontEq
  rw [Text.ended_nil, List.nil_append] at backEq
  refine ⟨above, start ++ rest, below, start.length, Text.lines_eq_iff.mpr ⟨?_, ?_⟩, ?_, ?_⟩
  · calc b.text.toList = front ++ back := (List.take_append_drop pos _).symm
      _ = (Text.ended above ++ start) ++ (rest ++ Text.begun below) := by rw [frontEq, backEq]
      _ = Text.ended above ++ (start ++ rest) ++ Text.begun below := by
        simp only [List.append_assoc]
  · intro l isLine
    rcases List.mem_append.mp isLine with isAbove | isLine
    · exact frontPlain l (List.mem_append_left _ isAbove)
    · rcases List.mem_cons.mp isLine with rfl | isBelow
      · rw [List.mem_append]
        exact not_or.mpr ⟨startPlain, restPlain⟩
      · exact backPlain l (List.mem_cons_of_mem _ isBelow)
  · rw [List.length_append]
    exact Nat.le_add_right ..
  · rw [← frontLength, frontEq, List.length_append]

namespace StandsAt

theorem text_eq (stands : b.StandsAt above line below column pos) :
    b.text.toList = Text.ended above ++ line ++ Text.begun below :=
  (Text.lines_eq_iff.mp stands.lines_eq).1

theorem plain (stands : b.StandsAt above line below column pos) : '\n' ∉ line :=
  (Text.lines_eq_iff.mp stands.lines_eq).2 line (List.mem_append_right _ List.mem_cons_self)

theorem size_eq (stands : b.StandsAt above line below column pos) :
    b.size = (Text.ended above).length + line.length + (Text.begun below).length := by
  rw [size, ← GapText.length_toList, stands.text_eq, List.length_append, List.length_append]

/-- Another column of the same line. -/
theorem goto (stands : b.StandsAt above line below column pos) (inside : goal ≤ line.length) :
    b.StandsAt above line below goal ((Text.ended above).length + goal) :=
  ⟨stands.lines_eq, inside, rfl⟩

/-- Some column of the line below. -/
theorem down (stands : b.StandsAt above line (next :: below) column pos)
    (inside : goal ≤ next.length) :
    b.StandsAt (above ++ [line]) next below goal ((Text.ended (above ++ [line])).length + goal) :=
  ⟨by rw [stands.lines_eq, List.append_assoc, List.singleton_append], inside, rfl⟩

/-- Some column of the line above. -/
theorem up (stands : b.StandsAt (above ++ [next]) line below column pos)
    (inside : goal ≤ next.length) :
    b.StandsAt above next (line :: below) goal ((Text.ended above).length + goal) :=
  ⟨by rw [stands.lines_eq, List.append_assoc, List.singleton_append], inside, rfl⟩

/-! ## Where a line starts and ends -/

theorem get?_eq (stands : b.StandsAt above line below column pos) {k : Nat}
    (inside : k < line.length) :
    b.text.get? ((Text.ended above).length + k) = some (line.get ⟨k, inside⟩) := by
  rw [← GapText.getElem?_toList, stands.text_eq, List.append_assoc,
    List.getElem?_append_right (Nat.le_add_right ..), Nat.add_sub_cancel_left,
    List.getElem?_append_left inside, List.getElem?_eq_getElem inside, List.get_eq_getElem]

theorem get?_ne_newline (stands : b.StandsAt above line below column pos) {k : Nat}
    (inside : k < line.length) :
    b.text.get? ((Text.ended above).length + k) ≠ some '\n' := by
  rw [stands.get?_eq inside]
  intro isNewline
  exact stands.plain (Option.some.inj isNewline ▸ List.get_mem line ⟨k, inside⟩)

/-- A newline comes between a line and the next one. -/
theorem get?_end (stands : b.StandsAt above line (next :: below) column pos) :
    b.text.get? ((Text.ended above).length + line.length) = some '\n' := by
  rw [← GapText.getElem?_toList, stands.text_eq, ← List.length_append,
    List.getElem?_append_right (Nat.le_refl _), Nat.sub_self, Text.begun_cons,
    List.getElem?_cons_zero]

theorem lineStartFrom_eq (stands : b.StandsAt above line below column pos) {k : Nat}
    (inside : k ≤ line.length) :
    b.lineStartFrom ((Text.ended above).length + k) = (Text.ended above).length := by
  induction k with
  | zero =>
      obtain rfl | ⟨above, prev, rfl⟩ := above.eq_nil_or_concat'
      · rfl
      · have newline := (stands.up (Nat.zero_le _)).get?_end
        rw [Nat.add_zero, Text.ended_concat, List.length_append, List.length_append,
          List.length_singleton, lineStartFrom, if_pos newline]
  | succ k ih =>
      rw [← Nat.add_assoc, lineStartFrom, if_neg (stands.get?_ne_newline inside)]
      exact ih (Nat.le_of_succ_le inside)

theorem lineEndFrom_eq (stands : b.StandsAt above line below column pos) {k more : Nat}
    (length : k + more = line.length) :
    b.lineEndFrom (more + (Text.begun below).length) ((Text.ended above).length + k) =
      (Text.ended above).length + line.length := by
  induction more generalizing k with
  | zero =>
      obtain rfl : k = line.length := length
      cases below with
      | nil => rfl
      | cons next below =>
          rw [Text.begun_cons, List.length_cons, Nat.zero_add, lineEndFrom,
            if_pos stands.get?_end]
  | succ more ih =>
      have inside : k < line.length := by omega
      rw [Nat.succ_add, lineEndFrom, if_neg (stands.get?_ne_newline inside), Nat.add_assoc]
      exact ih (by omega)

/-- The position is one of the text. -/
theorem pos_le (stands : b.StandsAt above line below column pos) : pos ≤ b.size := by
  have inside := stands.column_le
  rw [stands.size_eq, stands.pos_eq]
  omega

theorem lineStart_eq (stands : b.StandsAt above line below column pos) :
    b.lineStart pos = (Text.ended above).length := by
  rw [lineStart, clamp_of_le stands.pos_le, stands.pos_eq]
  exact stands.lineStartFrom_eq stands.column_le

theorem lineEnd_eq (stands : b.StandsAt above line below column pos) :
    b.lineEnd pos = (Text.ended above).length + line.length := by
  have inside := stands.column_le
  have room : b.size - pos = line.length - column + (Text.begun below).length := by
    rw [stands.size_eq, stands.pos_eq]
    omega
  rw [lineEnd, clamp_of_le stands.pos_le, room, stands.pos_eq]
  exact stands.lineEndFrom_eq (Nat.add_sub_cancel' inside)

end StandsAt

end Buffer

end EditorLisp

/-!
## Moving from line to line

The point moves up and down by lines and keeps its column.  On the way every line is entered at the
column of the start, or at its end where it is shorter, so a short line in between does not matter.
What cannot be moved is the answer, and then the point is at the end or at the start of the text.
-/

namespace EditorLisp.Buffer

variable {b : Buffer} {above below : List (List Char)} {line next : List Char}
  {column goal : Nat}

namespace StandsAt

/-! ### One line -/

theorem column_eq (stands : b.StandsAt above line below column b.point) : b.column = column := by
  rw [Buffer.column, stands.lineStart_eq]
  have := stands.pos_eq
  omega

/-- There is no line below the last one, and the point goes to its end. -/
theorem lineDown_last (stands : b.StandsAt above line [] column b.point) :
    b.lineDown goal = ({ b with point := b.size }, false) := by
  have atEnd : b.size ≤ b.lineEnd b.point := by
    rw [stands.lineEnd_eq, stands.size_eq, Text.begun_nil, List.length_nil]
    exact Nat.le_refl _
  rw [lineDown, if_pos atEnd]

theorem lineDown_eq (stands : b.StandsAt above line (next :: below) column b.point) :
    b.lineDown goal =
      ({ b with
          point := (Text.ended (above ++ [line])).length + min goal next.length }, true) := by
  have further : ¬b.size ≤ b.lineEnd b.point := by
    rw [stands.lineEnd_eq, stands.size_eq, Text.begun_cons, List.length_cons]
    omega
  have start : b.lineEnd b.point + 1 = (Text.ended (above ++ [line])).length + 0 := by
    rw [stands.lineEnd_eq, Text.ended_concat, List.length_append, List.length_append]
    rfl
  have stop := (stands.down (Nat.zero_le _)).lineEnd_eq
  rw [lineDown, if_neg further, start, stop, Nat.add_zero, Nat.add_min_add_left]

/-- There is no line above the first one, and the point goes to its start. -/
theorem lineUp_first (stands : b.StandsAt [] line below column b.point) :
    b.lineUp goal = ({ b with point := 0 }, false) := by
  have start : b.lineStart b.point = 0 := stands.lineStart_eq
  rw [lineUp, start]

theorem lineUp_eq (stands : b.StandsAt (above ++ [next]) line below column b.point) :
    b.lineUp goal =
      ({ b with point := (Text.ended above).length + min goal next.length }, true) := by
  have start : b.lineStart b.point = (Text.ended above).length + next.length + 1 := by
    rw [stands.lineStart_eq, Text.ended_concat, List.length_append, List.length_append]
    rfl
  have previous := (stands.up (Nat.le_refl next.length)).lineStart_eq
  have stop := (stands.up (Nat.zero_le _)).lineEnd_eq
  rw [Nat.add_zero] at stop
  rw [lineUp, start]
  dsimp only
  rw [previous, stop, Nat.add_min_add_left]

/-! ### Many lines -/

end StandsAt

/-- A movement over a number of lines where there are only so many.  The answer is how many are
missing.  Only the point has moved: to the goal column of the line of a number, or to its end if it
is shorter; if lines were missing, to the limit in that direction. -/
structure Arrives (b : Buffer) (goal count available number limit : Nat) (result : Buffer × Nat) :
    Prop where
  missing : result.2 = count - available
  reached : ∃ above line below column pos, result.1 = { b with point := pos } ∧
    b.StandsAt above line below column pos ∧ above.length = number ∧
      (count ≤ available → column = min goal line.length) ∧ (available < count → pos = limit)

/-- One line more, of those that are there. -/
theorem Arrives.succ {pos count available number limit : Nat} {result : Buffer × Nat}
    (arrives : Arrives { b with point := pos } goal count available number limit result) :
    b.Arrives goal (count + 1) (available + 1) number limit result where
  missing := by
    rw [arrives.missing, Nat.add_sub_add_right]
  reached := by
    obtain ⟨above, line, below, column, pos, same, stands, isNumber, goals, limits⟩ :=
      arrives.reached
    exact ⟨above, line, below, column, pos, same,
      ⟨stands.lines_eq, stands.column_le, stands.pos_eq⟩, isNumber,
      fun enough => goals (Nat.le_of_succ_le_succ enough),
      fun missing => limits (Nat.lt_of_succ_lt_succ missing)⟩

namespace StandsAt

/-- The point may go where it is known to stand. -/
theorem withPoint {pos : Nat} (stands : b.StandsAt above line below column pos) :
    StandsAt { b with point := pos } above line below column pos :=
  ⟨stands.lines_eq, stands.column_le, stands.pos_eq⟩

/-- No line is asked for, and the point stays. -/
theorem arrives_none (stands : b.StandsAt above line below column b.point)
    (isGoal : column = min goal line.length) (available limit : Nat) :
    b.Arrives goal 0 available above.length limit (b, 0) where
  missing := (Nat.zero_sub _).symm
  reached := ⟨above, line, below, column, b.point, rfl, stands, rfl, fun _ => isGoal,
    fun never => absurd never (Nat.not_lt_zero _)⟩

theorem arrives_moveLines_down (stands : b.StandsAt above line below column b.point)
    (isGoal : column = min goal line.length) (count : Nat) :
    b.Arrives goal count below.length (above.length + min count below.length) b.size
      (moveLines (·.lineDown goal) count b) := by
  induction count generalizing b above line below column with
  | zero =>
      rw [Nat.zero_min, Nat.add_zero]
      exact stands.arrives_none isGoal _ _
  | succ count ih =>
      rw [moveLines]
      cases below with
      | nil =>
          have last : b.StandsAt above line [] line.length b.size := by
            refine ⟨stands.lines_eq, Nat.le_refl _, ?_⟩
            rw [stands.size_eq, Text.begun_nil, List.length_nil, Nat.add_zero]
          rw [stands.lineDown_last]
          exact ⟨rfl, above, line, [], line.length, b.size, rfl, last, rfl,
            fun never => absurd never (Nat.not_succ_le_zero _), fun _ => rfl⟩
      | cons next below =>
          have moved := stands.down (Nat.min_le_right goal next.length)
          have number : above.length + min (count + 1) (below.length + 1) =
              (above ++ [line]).length + min count below.length := by
            rw [List.length_append, List.length_singleton]
            omega
          rw [stands.lineDown_eq, List.length_cons, number]
          exact (ih moved.withPoint rfl).succ

theorem arrives_moveLines_up (stands : b.StandsAt above line below column b.point)
    (isGoal : column = min goal line.length) (count : Nat) :
    b.Arrives goal count above.length (above.length - min count above.length) 0
      (moveLines (·.lineUp goal) count b) := by
  induction count generalizing b above line below column with
  | zero =>
      rw [Nat.zero_min, Nat.sub_zero]
      exact stands.arrives_none isGoal _ _
  | succ count ih =>
      rw [moveLines]
      obtain rfl | ⟨above, prev, rfl⟩ := above.eq_nil_or_concat'
      · have first : b.StandsAt [] line below 0 0 := ⟨stands.lines_eq, Nat.zero_le _, rfl⟩
        rw [stands.lineUp_first]
        exact ⟨rfl, [], line, below, 0, 0, rfl, first, rfl,
          fun never => absurd never (Nat.not_succ_le_zero _), fun _ => rfl⟩
      · have moved := stands.up (Nat.min_le_right goal prev.length)
        have number : above.length + 1 - min (count + 1) (above.length + 1) =
            above.length - min count above.length := by
          omega
        rw [stands.lineUp_eq, List.length_append, List.length_singleton, number]
        exact (ih moved.withPoint rfl).succ

theorem arrives_forwardLine (stands : b.StandsAt above line below column b.point) (n : Int) :
    let available := if 0 ≤ n then below.length else above.length
    let moved := min n.natAbs available
    b.Arrives column n.natAbs available
      (if 0 ≤ n then above.length + moved else above.length - moved) (if 0 ≤ n then b.size else 0)
      (b.forwardLine n) := by
  intro available moved
  have isGoal : column = min column line.length := (Nat.min_eq_left stands.column_le).symm
  rw [forwardLine, stands.column_eq]
  dsimp only [available, moved]
  split
  next forward =>
      have count : n.toNat = n.natAbs := by omega
      rw [count]
      exact stands.arrives_moveLines_down isGoal _
  next back =>
      have count : (-n).toNat = n.natAbs := by omega
      rw [count]
      exact stands.arrives_moveLines_up isGoal _

end StandsAt

/-- The point moves by as many of the lines asked for as there are in that direction, and the
answer is how many are missing.  If none is, the point is on the line that many lines on, in its old
column or at the end of the line if that is shorter, whatever the lines in between are like.  If
some are, it is at the end of the text, or at its start.  Nothing else has changed. -/
theorem forwardLine_lines (inside : b.point ≤ b.size) :
    ∃ above line below column, b.StandsAt above line below column b.point ∧ ∀ n : Int,
      let available := if 0 ≤ n then below.length else above.length
      let moved := min n.natAbs available
      (b.forwardLine n).2 = n.natAbs - moved ∧
        ∃ above' line' below' column' pos, (b.forwardLine n).1 = { b with point := pos } ∧
          b.StandsAt above' line' below' column' pos ∧
            above'.length = (if 0 ≤ n then above.length + moved else above.length - moved) ∧
              ((b.forwardLine n).2 = 0 → column' = min column line'.length) ∧
                (0 < (b.forwardLine n).2 → pos = if 0 < n then b.size else 0) := by
  obtain ⟨above, line, below, column, stands⟩ := exists_standsAt inside
  refine ⟨above, line, below, column, stands, fun n => ?_⟩
  intro available moved
  obtain ⟨missing, above', line', below', column', pos, same, stands', number, goals, limits⟩ :=
    stands.arrives_forwardLine n
  refine ⟨?_, above', line', below', column', pos, same, stands', number, fun none => ?_,
    fun some => ?_⟩
  · rw [missing]
    omega
  · exact goals (Nat.le_of_sub_eq_zero (missing.symm.trans none))
  · have tooMany : available < n.natAbs := Nat.lt_of_sub_pos (missing ▸ some)
    rw [limits tooMany]
    by_cases forward : 0 < n
    · rw [if_pos forward, if_pos (Int.le_of_lt forward)]
    · rw [if_neg forward, if_neg (by omega)]

/-- A line on the way that is shorter than the column does not matter. -/
theorem forwardLine_lines_short :
    let b := (Buffer.insert { id := 1, name := "notes" } "abc\nd\nefgh").goto 3
    b.point ≤ b.size ∧ (b.forwardLine 2).2 = 0 ∧
      ∃ above line below column pos, (b.forwardLine 2).1 = { b with point := pos } ∧
        b.StandsAt above line below column pos ∧ column = min 3 line.length := by
  intro b
  have inside : b.point ≤ b.size := by decide
  have none : (b.forwardLine 2).2 = 0 := by decide
  obtain ⟨above, line, below, column, stands, moves⟩ := forwardLine_lines inside
  obtain ⟨-, above', line', below', column', pos, same, stands', -, goals, -⟩ := moves 2
  have start : column = 3 := stands.column_eq.symm.trans (by decide)
  exact ⟨inside, none, above', line', below', column', pos, same, stands', start ▸ goals none⟩

end EditorLisp.Buffer
