import EditorLisp.Proofs.Document.Edits
import EditorLisp.Proofs.Document.Lines
import EditorLisp.Proofs.Forms.Immediate
import EditorLisp.Proofs.Primitives.Search
import EditorLisp.Proofs.Primitives.Texts

/-!
# Inserting a rectangle

The texts of a rectangle are inserted one below the other, all at the column of the point.  The
point travels through a text that grows under it: from the line it has just written to it goes to
the next one, or makes one where there is none, and on that line to the column, or past its end
with blanks.  So each text goes into the line as it was before, and the lines around stay.
-/

namespace EditorLisp

namespace Text

variable {column : Nat} {text line : List Char} {texts lines : List (List Char)}

/-- A line with a text put in at a column, which blanks lead to if the line is shorter. -/
def putAt (column : Nat) (text line : List Char) : List Char :=
  (line.take column).rightpad column ' ' ++ text ++ line.drop column

/-- Lines with a text put into each of the first ones.  Where there is no line left, an empty one
is added. -/
def putBelow (column : Nat) : List (List Char) → List (List Char) → List (List Char)
  | [], lines => lines
  | text :: texts, lines => putAt column text (lines.headD []) :: putBelow column texts lines.tail

/-- It comes to the same whether a line is filled up with blanks before it is taken apart. -/
theorem putAt_rightpad (column : Nat) (text line : List Char) :
    (line.rightpad column ' ').take column ++ text ++ (line.rightpad column ' ').drop column =
      putAt column text line := by
  unfold putAt List.rightpad
  rcases Nat.le_total column line.length with long | short
  · rw [Nat.sub_eq_zero_of_le long, List.replicate_zero, List.append_nil, List.length_take,
      Nat.min_eq_left long, Nat.sub_self, List.replicate_zero, List.append_nil]
  · have filled : (line ++ List.replicate (column - line.length) ' ').length = column := by
      simp [Nat.add_sub_cancel' short]
    rw [List.take_of_length_le (Nat.le_of_eq filled), List.drop_of_length_le (Nat.le_of_eq filled),
      List.take_of_length_le short, List.drop_of_length_le short]

/-- The column is at hand in a line that has it. -/
theorem putAt_of_le (inside : column ≤ line.length) :
    putAt column text line = line.take column ++ text ++ line.drop column := by
  simp [putAt, List.rightpad, inside]

/-- What becomes of each line. -/
theorem getElem?_putBelow (column : Nat) (texts lines : List (List Char)) (i : Nat) :
    (putBelow column texts lines)[i]? =
      match texts[i]? with
      | some text => some (putAt column text (lines.getD i []))
      | none => lines[i]? := by
  induction texts generalizing lines i with
  | nil => simp [putBelow]
  | cons text texts ih =>
      cases i with
      | zero => cases lines <;> simp [putBelow]
      | succ i => cases lines <;> simp [putBelow, ih]

end Text

namespace Buffer.StandsAt

open Text

variable {b : Buffer} {above below : List (List Char)} {line next : List Char} {column goal : Nat}
  {s : String}

/-- A text without newlines is inserted into the line. -/
theorem insert (stands : b.StandsAt above line below column b.point) (plain : '\n' ∉ s.toList) :
    (b.insert s).StandsAt above (line.take column ++ s.toList ++ line.drop column) below
      (column + s.length) (b.insert s).point where
  lines_eq := by
    obtain ⟨-, linesPlain⟩ := lines_eq_iff.mp stands.lines_eq
    refine lines_eq_iff.mpr ⟨?_, fun l isLine => ?_⟩
    · have front : (ended above ++ line.take column).length = b.point := by
        rw [List.length_append, List.length_take_of_le stands.column_le, stands.pos_eq]
      have split : b.text.toList =
          (ended above ++ line.take column) ++ (line.drop column ++ begun below) := by
        rw [List.append_assoc, ← List.append_assoc (line.take column), List.take_append_drop,
          ← List.append_assoc, stands.text_eq]
      rw [toList_insert b s stands.pos_le, split, List.take_left' front, List.drop_left' front]
      simp only [List.append_assoc]
    · rcases List.mem_append.mp isLine with isAbove | isLine
      · exact linesPlain l (List.mem_append_left _ isAbove)
      · rcases List.mem_cons.mp isLine with rfl | isBelow
        · simp only [List.mem_append, not_or]
          exact ⟨⟨fun inside => stands.plain (List.mem_of_mem_take inside), plain⟩,
            fun inside => stands.plain (List.mem_of_mem_drop inside)⟩
        · exact linesPlain l (List.mem_append_right _ (List.mem_cons_of_mem _ isBelow))
  column_le := by
    have inside := stands.column_le
    simp only [List.length_append, List.length_take, String.length_toList]
    omega
  pos_eq := by
    show b.point + s.length = _
    rw [stands.pos_eq, Nat.add_assoc]

/-- A newline at the end of the text begins a line. -/
theorem insert_newline (stands : b.StandsAt above line [] line.length b.point) :
    (b.insert "\n").StandsAt (above ++ [line]) [] [] 0 (b.insert "\n").point where
  lines_eq := by
    obtain ⟨text, plain⟩ := lines_eq_iff.mp stands.lines_eq
    rw [begun_nil, List.append_nil] at text
    have atEnd : b.text.toList.length = b.point := by
      rw [text, List.length_append, stands.pos_eq]
    refine lines_eq_iff.mpr ⟨?_, fun l isLine => ?_⟩
    · rw [toList_insert b "\n" stands.pos_le, List.take_of_length_le (Nat.le_of_eq atEnd),
        List.drop_of_length_le (Nat.le_of_eq atEnd), text, ended_concat]
      simp
    · rcases List.mem_append.mp isLine with earlier | isLast
      · exact plain l earlier
      · rw [List.mem_singleton.mp isLast]
        exact List.not_mem_nil
  column_le := Nat.le_refl 0
  pos_eq := by
    show b.point + 1 = _
    rw [stands.pos_eq, ended_concat, List.length_append, List.length_append]
    rfl

/-- The point goes to a position of the text. -/
theorem withGoto {pos : Nat} (stands : b.StandsAt above line below column pos) :
    (b.goto pos).StandsAt above line below column (b.goto pos).point :=
  ⟨stands.lines_eq, stands.column_le, (clamp_of_le stands.pos_le).trans stands.pos_eq⟩

/-- The point goes to a column of its line, or to the end of the line. -/
theorem moveToColumn_eq (stands : b.StandsAt above line below column b.point) :
    b.moveToColumn goal =
      ({ b with point := (ended above).length + min goal line.length }, min goal line.length) := by
  rw [moveToColumn, stands.lineStart_eq, stands.lineEnd_eq]
  simp only [Nat.add_min_add_left, Nat.add_sub_cancel_left]

end Buffer.StandsAt

namespace Primitives

open Eval Text

variable {b : Buffer} {above below : List (List Char)} {line : List Char} {column goal : Nat}

/-! ## From line to line -/

/-- The point goes to the start of the next line, which is made if there is none. -/
def nextLine (b : Buffer) : Buffer :=
  if b.lineEnd b.point = b.size then (b.goto (b.lineEnd b.point)).insert "\n"
  else b.goto (b.lineEnd b.point + 1)

/-- The point goes to a column of its line, past the end of the line with blanks. -/
def reachColumn (b : Buffer) (goal : Nat) : Buffer :=
  if (b.moveToColumn goal).2 < goal then
    (b.moveToColumn goal).1.insert (Format.copies ' ' (goal - (b.moveToColumn goal).2))
  else (b.moveToColumn goal).1

theorem nextRow_eq (b : Buffer) (goal : Nat) : nextRow b goal = reachColumn (nextLine b) goal := rfl

theorem standsAt_nextLine (stands : b.StandsAt above line below column b.point) :
    (nextLine b).StandsAt (above ++ [line]) (below.headD []) below.tail 0 (nextLine b).point := by
  have stop := stands.lineEnd_eq
  have atEnd := stands.goto (Nat.le_refl line.length)
  rw [nextLine]
  cases below with
  | nil =>
      have isLast : b.lineEnd b.point = b.size := by
        rw [stop, stands.size_eq, begun_nil, List.length_nil, Nat.add_zero]
      rw [if_pos isLast, stop]
      exact atEnd.withGoto.insert_newline
  | cons next below =>
      have further : b.lineEnd b.point ≠ b.size := by
        rw [stop, stands.size_eq, begun_cons, List.length_cons]
        omega
      have start : b.lineEnd b.point + 1 = (ended (above ++ [line])).length + 0 := by
        rw [stop, ended_concat, List.length_append, List.length_append]
        rfl
      rw [if_neg further, start]
      exact (stands.down (Nat.zero_le _)).withGoto

theorem newline_notMem_copies (n : Nat) : '\n' ∉ (Format.copies ' ' n).toList := by
  simp [Format.copies]

theorem standsAt_reachColumn (goal : Nat)
    (stands : b.StandsAt above line below column b.point) :
    (reachColumn b goal).StandsAt above (line.rightpad goal ' ') below goal
      (reachColumn b goal).point := by
  have moved := (stands.goto (Nat.min_le_right goal line.length)).withPoint
  rw [reachColumn, stands.moveToColumn_eq]
  dsimp only
  split
  next short =>
      have reached : min goal line.length = line.length := by omega
      have padded := moved.insert (newline_notMem_copies (goal - line.length))
      rw [reached] at padded ⊢
      have length : line.length + (Format.copies ' ' (goal - line.length)).length = goal := by
        simp [Format.copies]
        omega
      rw [List.take_length, List.drop_length, List.append_nil, length] at padded
      simpa [List.rightpad, Format.copies] using padded
  next long =>
      have reached : min goal line.length = goal := by omega
      have whole : line.rightpad goal ' ' = line := by
        simp [List.rightpad]
        omega
      rw [reached] at moved ⊢
      rwa [whole]

/-! ## The rows -/

variable {text : String} {texts : List String}

/-- The next row of the rectangle. -/
theorem standsAt_row (goal : Nat) (stands : b.StandsAt above line below column b.point)
    (plain : '\n' ∉ text.toList) :
    ((nextRow b goal).insert text).StandsAt (above ++ [line])
      (putAt goal text.toList (below.headD [])) below.tail (goal + text.length)
      ((nextRow b goal).insert text).point := by
  have reached := standsAt_reachColumn goal (standsAt_nextLine stands)
  rw [nextRow_eq, ← putAt_rightpad]
  exact reached.insert plain

/-- Row by row: the induction is on the rows that are left, from the line that the last one was put
into. -/
theorem lines_rows (stands : b.StandsAt above line below column b.point)
    (plain : ∀ text ∈ texts, '\n' ∉ text.toList) :
    (texts.foldl (fun b' text => (nextRow b' goal).insert text) b).lines =
      above ++ line :: putBelow goal (texts.map String.toList) below := by
  induction texts generalizing b above line below column with
  | nil => exact stands.lines_eq
  | cons text texts ih =>
      have row := standsAt_row goal stands (plain text List.mem_cons_self)
      have rest := ih row fun text later => plain text (List.mem_cons_of_mem _ later)
      rw [List.foldl_cons, rest, List.append_assoc]
      rfl

/-- A buffer with a rectangle inserted at its point. -/
def rectangle (texts : List String) (b : Buffer) : Buffer :=
  match texts with
  | [] => b
  | first :: rest => rest.foldl (fun b' text => (nextRow b' b.column).insert text) (b.insert first)

instance : Buffer.EditedBy (rectangle texts) := editedBy_rows texts

theorem lines_rectangle (stands : b.StandsAt above line below column b.point)
    (plain : ∀ text ∈ texts, '\n' ∉ text.toList) :
    (rectangle texts b).lines =
      above ++ putBelow column (texts.map String.toList) (line :: below) := by
  cases texts with
  | nil => exact stands.lines_eq
  | cons first rest =>
      have started := stands.insert (plain first List.mem_cons_self)
      rw [← putAt_of_le stands.column_le] at started
      rw [rectangle, stands.column_eq]
      exact lines_rows started fun text later => plain text (List.mem_cons_of_mem _ later)

/-! ## The command -/

variable {I : Interp} {s : Session} {v : Value} {rows : List (Nat × String)}

/-- What is given is a list of strings. -/
theorem insertRectangle_eq (editing : s.Editing b)
    (given : s.store.list? v = some (rows.map fun row => .str row.1 row.2)) :
    callPrimitive I "insert-rectangle" [v] s =
      .ok .nil (s.changing b.id (rectangle (rows.map Prod.snd))) := by
  have read : (properList v) s = .ok (rows.map fun row => .str row.1 row.2) s := by
    unfold properList
    rw [given]
  have texts : (rows.map fun row => Value.str row.1 row.2).mapM string s =
      .ok (rows.map Prod.snd) s := by
    apply mapM_of_forall₂
    rw [List.forall₂_map_left_iff, List.forall₂_map_right_iff, List.forall₂_same]
    exact fun _ _ => rfl
  rw [callPrimitive_of_editing I rfl]
  refine (bind_of_ok _ rfl).trans ((bind_of_ok _ read).trans ((bind_of_ok _ texts).trans ?_))
  exact bind_of_ok _ (editing.modifyCurrent_eq (rectangle (rows.map Prod.snd)))

/-- With the point at a column of a line, each text of the rectangle goes to that column, the first
one into that line and each other one into the next line, which is taken for an empty one where the
text has ended.  A line that is shorter than the column is filled up with blanks.  All other lines
stay, and so do all other buffers. -/
theorem lines_insertRectangle (editing : s.Editing b)
    (stands : b.StandsAt above line below column b.point)
    (given : s.store.list? v = some (rows.map fun row => .str row.1 row.2))
    (plain : ∀ row ∈ rows, '\n' ∉ row.2.toList) :
    ∃ t b', callPrimitive I "insert-rectangle" [v] s = .ok .nil t ∧ t.Editing b' ∧ b'.id = b.id ∧
      (∀ i row, rows[i]? = some row →
        b'.lines[above.length + i]? =
          some (putAt column row.2.toList (b.lines.getD (above.length + i) []))) ∧
      (∀ k, k < above.length ∨ above.length + rows.length ≤ k → b'.lines[k]? = b.lines[k]?) ∧
      ∀ id, id ≠ b.id → t.workspace.buffer? id = s.workspace.buffer? id := by
  have texts : ∀ text ∈ rows.map Prod.snd, '\n' ∉ text.toList := by
    intro text isText
    obtain ⟨row, isRow, rfl⟩ := List.mem_map.mp isText
    exact plain row isRow
  have after := lines_rectangle stands texts
  have before := stands.lines_eq
  have edited : b.Edited (rectangle (rows.map Prod.snd) b) := Buffer.EditedBy.edited b
  refine ⟨_, _, insertRectangle_eq editing given, editing.changing (rectangle _), edited.id_eq,
    ?_, ?_, ?_⟩
  · intro i row isRow
    have old : b.lines.getD (above.length + i) [] = (line :: below).getD i [] := by
      rw [before, List.getD_eq_getElem?_getD, List.getElem?_append_right (Nat.le_add_right ..),
        Nat.add_sub_cancel_left, List.getD_eq_getElem?_getD]
    rw [after, old, List.getElem?_append_right (Nat.le_add_right ..), Nat.add_sub_cancel_left,
      getElem?_putBelow, List.getElem?_map, List.getElem?_map, isRow]
    rfl
  · intro k outside
    rw [after, before]
    rcases outside with isAbove | isBelow
    · rw [List.getElem?_append_left isAbove, List.getElem?_append_left isAbove]
    · have beyond : above.length ≤ k := Nat.le_trans (Nat.le_add_right ..) isBelow
      have none : rows[k - above.length]? = none := List.getElem?_eq_none (by omega)
      rw [List.getElem?_append_right beyond, List.getElem?_append_right beyond, getElem?_putBelow,
        List.getElem?_map, List.getElem?_map, none]
      rfl
  · intro id other
    exact (Workspace.buffer?_modifyBuffer ..).trans (if_neg other.symm)

/-- Three rows from the third column on, into a line that has it, one that is shorter and one that
is not there. -/
theorem lines_insertRectangle_three :
    let rows := [(0, "x"), (0, "yy"), (0, "z")]
    let made := ({} : Store).list (rows.map fun row => .str row.1 row.2)
    let s : Session := { sessionOf "abc\nd" 2 with store := made.2 }
    let b := bufferOf "abc\nd" 2
    s.Editing b ∧ b.StandsAt [] "abc".toList ["d".toList] 2 b.point ∧
      s.store.list? made.1 = some (rows.map fun row => .str row.1 row.2) ∧
      (∀ row ∈ rows, '\n' ∉ row.2.toList) ∧
      ∃ t b', callPrimitive .top "insert-rectangle" [made.1] s = .ok .nil t ∧ t.Editing b' ∧
        b'.lines[0]? = some "abxc".toList ∧ b'.lines[1]? = some "d yy".toList ∧
        b'.lines[2]? = some "  z".toList ∧ b'.lines[3]? = none := by
  intro rows made s b
  have new := editing_sessionOf "abc\nd" 2
  have editing : s.Editing b := ⟨new.wellFormed, new.current?_eq⟩
  have stands : b.StandsAt [] "abc".toList ["d".toList] 2 b.point := by
    constructor <;> decide +kernel
  have given : s.store.list? made.1 = some (rows.map fun row => .str row.1 row.2) :=
    Store.list?_list _ (.refl _)
  have plain : ∀ row ∈ rows, '\n' ∉ row.2.toList := by decide
  obtain ⟨t, b', called, after, -, put, kept, -⟩ :=
    lines_insertRectangle (I := .top) editing stands given plain
  refine ⟨editing, stands, given, plain, t, b', called, after, ?_, ?_, ?_, ?_⟩
  · exact (put 0 _ rfl).trans (by decide +kernel)
  · exact (put 1 _ rfl).trans (by decide +kernel)
  · exact (put 2 _ rfl).trans (by decide +kernel)
  · exact (kept 3 (.inr (by decide))).trans (by decide +kernel)

end Primitives

end EditorLisp
