import EditorLisp.Document.Buffer
import EditorLisp.Proofs.Document.GapText

/-!
# What an edit leaves alone

Every operation on a buffer keeps its number and its name, and leaves the point inside the
text.  The length of the text after an edit is that of the list of its characters.
-/

namespace EditorLisp.Buffer

/-- What every operation on a buffer does: the number and the name stay, and a point in the
text stays in the text. -/
structure Edited (b b' : Buffer) : Prop where
  id_eq : b'.id = b.id
  name_eq : b'.name = b.name
  point_le : b.point ≤ b.size → b'.point ≤ b'.size

namespace Edited

variable {b b' b'' : Buffer}

@[refl]
theorem refl (b : Buffer) : b.Edited b := ⟨rfl, rfl, fun inside => inside⟩

theorem trans (first : b.Edited b') (second : b'.Edited b'') : b.Edited b'' where
  id_eq := second.id_eq.trans first.id_eq
  name_eq := second.name_eq.trans first.name_eq
  point_le inside := second.point_le (first.point_le inside)

/-- Text and point are left alone. -/
theorem aside (id_eq : b'.id = b.id) (name_eq : b'.name = b.name) (text : b'.text = b.text)
    (point : b'.point = b.point) : b.Edited b' where
  id_eq := id_eq
  name_eq := name_eq
  point_le inside := by rwa [size, text, point]

/-- The point may go to any position of the text. -/
theorem point {pos : Nat} (inside : b.point ≤ b.size → pos ≤ b.size) :
    b.Edited { b with point := pos } :=
  ⟨rfl, rfl, inside⟩

end Edited

/-! ## Positions -/

section Positions

variable (b : Buffer) (x y pos : Nat)

theorem clamp_le : b.clamp pos ≤ b.size := Nat.min_le_right ..

theorem clamp_of_le {b : Buffer} {pos : Nat} (inside : pos ≤ b.size) : b.clamp pos = pos :=
  Nat.min_eq_left inside

theorem ordered_fst : (b.ordered x y).1 = min (min x y) b.size := by
  by_cases before : min x b.size ≤ min y b.size
  · rw [ordered, clamp, clamp, if_pos before]
    omega
  · rw [ordered, clamp, clamp, if_neg before]
    omega

theorem ordered_snd : (b.ordered x y).2 = min (max x y) b.size := by
  by_cases before : min x b.size ≤ min y b.size
  · rw [ordered, clamp, clamp, if_pos before]
    omega
  · rw [ordered, clamp, clamp, if_neg before]
    omega

theorem lineStartFrom_le : b.lineStartFrom pos ≤ pos := by
  induction pos with
  | zero => exact Nat.le_refl 0
  | succ pos ih =>
      rw [lineStartFrom]
      split <;> omega

theorem lineStart_le : b.lineStart pos ≤ b.clamp pos := lineStartFrom_le b _

theorem lineEndFrom_bounds (room : Nat) :
    pos ≤ b.lineEndFrom room pos ∧ b.lineEndFrom room pos ≤ pos + room := by
  induction room generalizing pos with
  | zero => exact ⟨Nat.le_refl _, Nat.le_refl _⟩
  | succ room ih =>
      rw [lineEndFrom]
      have := ih (pos + 1)
      split <;> omega

theorem lineEnd_le_size : b.lineEnd pos ≤ b.size := by
  have := (lineEndFrom_bounds b (b.clamp pos) (b.size - pos)).2
  simp only [lineEnd, clamp] at this ⊢
  omega

theorem le_lineEnd : b.clamp pos ≤ b.lineEnd pos := (lineEndFrom_bounds b _ _).1

theorem firstBlank_le (fuel start : Nat) : b.firstBlank fuel start ≤ start := by
  induction fuel generalizing start with
  | zero => exact Nat.le_refl _
  | succ fuel ih =>
      cases start with
      | zero => exact Nat.le_refl _
      | succ start =>
          rw [firstBlank]
          have upper := lineStart_le b start
          have := ih (b.lineStart start)
          simp only [clamp] at upper
          split <;> omega

theorem le_lastBlank (fuel stop : Nat) (inside : stop ≤ b.size) : stop ≤ b.lastBlank fuel stop := by
  induction fuel generalizing stop with
  | zero => exact Nat.le_refl _
  | succ fuel ih =>
      rw [lastBlank]
      split
      next more =>
          have further : stop < b.size := by
            rw [Bool.and_eq_true, decide_eq_true_eq] at more
            exact more.1
          have lower := le_lineEnd b (stop + 1)
          have := ih _ (lineEnd_le_size b (stop + 1))
          simp only [clamp] at lower
          omega
      next => exact Nat.le_refl _

theorem skipAhead_le (accept : Char → Bool) (room : Nat) :
    b.skipAhead accept room pos ≤ pos + room := by
  induction room generalizing pos with
  | zero => exact Nat.le_refl _
  | succ room ih =>
      rw [skipAhead]
      have := ih (pos + 1)
      split <;> omega

theorem skipBack_le (accept : Char → Bool) (room : Nat) : b.skipBack accept room pos ≤ pos := by
  induction room generalizing pos with
  | zero => exact Nat.le_refl _
  | succ room ih =>
      cases pos with
      | zero => exact Nat.le_refl _
      | succ pos =>
          rw [skipBack]
          have := ih pos
          split <;> omega

theorem wordEnd_le (inside : pos ≤ b.size) : b.wordEnd pos ≤ b.size := by
  have start := skipAhead_le b pos (fun c => !Text.isBufferWord c) (b.size - pos)
  have stop := skipAhead_le b (b.skipAhead (fun c => !Text.isBufferWord c) (b.size - pos) pos)
    Text.isBufferWord
    (b.size - b.skipAhead (fun c => !Text.isBufferWord c) (b.size - pos) pos)
  simp only [wordEnd]
  omega

theorem wordStart_le : b.wordStart pos ≤ pos :=
  Nat.le_trans (skipBack_le b _ _ _) (skipBack_le b _ _ _)

end Positions

/-! ## Lengths -/

section Lengths

variable (b : Buffer) (x y pos : Nat) (s : String)

theorem size_insert (inside : b.point ≤ b.size) : (b.insert s).size = b.size + s.length := by
  have chars := GapText.toList_insert b.text b.point s.toList inside
  have := congrArg List.length chars
  simp only [List.length_append, List.length_take, List.length_drop, GapText.length_toList,
    String.length_toList] at this
  simp only [size, insert] at inside ⊢
  omega

theorem size_insertAt : (b.insertAt pos s).size = b.size + s.length := by
  have inside := clamp_le b pos
  have chars := GapText.toList_insert b.text (b.clamp pos) s.toList inside
  have := congrArg List.length chars
  simp only [List.length_append, List.length_take, List.length_drop, GapText.length_toList,
    String.length_toList] at this
  simp only [size, insertAt] at inside ⊢
  omega

theorem size_deleteRegion :
    (b.deleteRegion x y).size = b.size - (min (max x y) b.size - min (min x y) b.size) := by
  have first := ordered_fst b x y
  have second := ordered_snd b x y
  have chars := GapText.toList_delete b.text (b.ordered x y).1 (b.ordered x y).2 (by omega)
    (by rw [second]; exact Nat.min_le_right ..)
  have := congrArg List.length chars
  simp only [List.length_append, List.length_take, List.length_drop, GapText.length_toList] at this
  rw [← first, ← second]
  simp only [size, deleteRegion] at first second ⊢
  omega

theorem size_substFrom (text : GapText) (source target : Char) (pos room changed : Nat) :
    (substFrom text source target pos room changed).1.size = text.size := by
  induction room generalizing text pos changed with
  | zero => rfl
  | succ room ih =>
      rw [substFrom]
      split
      next =>
          have chars := GapText.toList_replaceAt text pos target
          have sameSize := congrArg List.length chars
          rw [List.length_set, GapText.length_toList, GapText.length_toList] at sameSize
          rw [ih, sameSize]
      next => exact ih ..

theorem size_substChar (source target : Char) :
    (b.substChar x y source target).1.size = b.size := by
  unfold substChar size
  exact size_substFrom ..

end Lengths

/-! ## Edits -/

section Edits

variable (b : Buffer) (x y pos : Nat) (s : String)

theorem edited_goto : b.Edited (b.goto pos) := Edited.point fun _ => clamp_le b pos

theorem edited_insert : b.Edited (b.insert s) where
  id_eq := rfl
  name_eq := rfl
  point_le inside := by
    rw [size_insert b s inside]
    exact Nat.add_le_add_right inside _

theorem edited_insertAt : b.Edited (b.insertAt pos s) where
  id_eq := rfl
  name_eq := rfl
  point_le inside := by
    rw [size_insertAt]
    simp only [insertAt]
    split <;> omega

theorem edited_deleteRegion : b.Edited (b.deleteRegion x y) where
  id_eq := rfl
  name_eq := rfl
  point_le inside := by
    have first := ordered_fst b x y
    have second := ordered_snd b x y
    rw [size_deleteRegion]
    simp only [deleteRegion]
    split
    · omega
    · split <;> omega

theorem edited_replaceRegion : b.Edited (b.replaceRegion x y s) :=
  (edited_deleteRegion b _ _).trans (edited_insertAt _ _ s)

theorem edited_erase : b.Edited b.erase := ⟨rfl, rfl, fun _ => Nat.zero_le _⟩

theorem edited_deleteChar (n : Int) : b.Edited (b.deleteChar n) := by
  unfold deleteChar
  split <;> exact edited_deleteRegion ..

theorem edited_substChar (source target : Char) : b.Edited (b.substChar x y source target).1 where
  id_eq := rfl
  name_eq := rfl
  point_le inside := by
    rw [size_substChar]
    exact inside

theorem edited_untabify : b.Edited (b.untabify x y) := edited_substChar b x y '\t' ' '

theorem edited_lineDown (column : Nat) : b.Edited (b.lineDown column).1 := by
  unfold lineDown
  simp only
  split
  · exact Edited.point fun _ => Nat.le_refl _
  · exact Edited.point fun _ => Nat.le_trans (Nat.min_le_right ..) (lineEnd_le_size b _)

theorem edited_lineUp (column : Nat) : b.Edited (b.lineUp column).1 := by
  unfold lineUp
  split
  · exact Edited.point fun _ => Nat.zero_le _
  · exact Edited.point fun _ => Nat.le_trans (Nat.min_le_right ..) (lineEnd_le_size b _)

theorem edited_moveLines {step : Buffer → Buffer × Bool} (one : ∀ b : Buffer, b.Edited (step b).1)
    (n : Nat) : b.Edited (moveLines step n b).1 := by
  induction n generalizing b with
  | zero => exact Edited.refl b
  | succ n ih =>
      have first := one b
      rw [moveLines]
      split
      next moved => rw [moved] at first; exact first.trans (ih _)
      next stuck => rw [stuck] at first; exact first

theorem edited_forwardLine (n : Int) : b.Edited (b.forwardLine n).1 := by
  unfold forwardLine
  simp only
  split
  · exact edited_moveLines b (fun b => edited_lineDown b _) _
  · exact edited_moveLines b (fun b => edited_lineUp b _) _

theorem edited_moveToColumn (column : Nat) : b.Edited (b.moveToColumn column).1 :=
  Edited.point fun _ => Nat.le_trans (Nat.min_le_right ..) (lineEnd_le_size b _)

theorem edited_moveToColumn? {column reached : Nat} {b' : Buffer}
    (moved : b.moveToColumn? column = some (b', reached)) : b.Edited b' := by
  unfold moveToColumn? at moved
  split at moved
  next =>
    cases moved
    exact edited_moveToColumn b column
  next => cases moved

theorem edited_deleteBlankLines : b.Edited b.deleteBlankLines := by
  unfold deleteBlankLines
  simp only
  split
  · split
    · exact edited_deleteRegion ..
    · refine (edited_deleteRegion b _ _).trans (Edited.point fun _ => ?_)
      -- The point goes to the first blank line, and what is deleted lies after it.
      let start := b.lineStart b.point
      let first := b.firstBlank (b.size + 1) start
      let last := b.lastBlank (b.size + 1) (b.lineEnd start)
      have startLe : start ≤ b.size := Nat.le_trans (lineStart_le b _) (clamp_le b _)
      have firstLe : first ≤ start := firstBlank_le b _ _
      have lineLe := le_lineEnd b first
      have stopLe := le_lineEnd b start
      have lastGe : b.lineEnd start ≤ last := le_lastBlank b _ _ (lineEnd_le_size b _)
      rw [clamp_of_le startLe] at stopLe
      rw [clamp_of_le (Nat.le_trans firstLe startLe)] at lineLe
      have room : first ≤ (b.deleteRegion (b.lineEnd first) last).size := by
        rw [size_deleteRegion]
        omega
      exact room
  · split
    · exact edited_deleteRegion ..
    · exact Edited.refl b

theorem edited_forwardChar? {n : Int64} {b' : Buffer} {whole : Bool}
    (moved : b.forwardChar? n = some (b', whole)) : b.Edited b' := by
  unfold forwardChar? at moved
  obtain ⟨fixed, -, moved⟩ := Option.bind_eq_some_iff.mp moved
  cases moved
  exact Edited.point fun _ => by omega

theorem edited_skipForward (accept : Char → Bool) (limit : Nat) :
    b.Edited (b.skipForward accept limit).1 :=
  Edited.point fun inside => by
    have := skipAhead_le b b.point accept (b.clamp limit - b.point)
    have := clamp_le b limit
    omega

theorem edited_skipBackward (accept : Char → Bool) (limit : Nat) :
    b.Edited (b.skipBackward accept limit).1 :=
  Edited.point fun inside => Nat.le_trans (skipBack_le ..) inside

/-- A position that every step leaves inside the text stays there. -/
theorem repeat_le {f : Nat → Nat} (step : ∀ pos, pos ≤ b.size → f pos ≤ b.size) (n : Nat)
    {pos : Nat} (inside : pos ≤ b.size) : n.repeat f pos ≤ b.size := by
  induction n with
  | zero => exact inside
  | succ n ih => exact step _ ih

theorem edited_forwardWord (n : Nat) : b.Edited (b.forwardWord n) :=
  Edited.point fun inside => repeat_le b (fun pos => wordEnd_le b pos) _ inside

theorem edited_backwardWord (n : Nat) : b.Edited (b.backwardWord n) :=
  Edited.point fun inside =>
    repeat_le b (fun pos inside => Nat.le_trans (wordStart_le b pos) inside) _ inside

theorem edited_setLocal (name : String) (value : Value) : b.Edited (b.setLocal name value) :=
  Edited.aside rfl rfl rfl rfl

theorem edited_killLocal (name : String) : b.Edited (b.killLocal name) := Edited.aside rfl rfl rfl rfl

theorem edited_addHook (hook : String) (function : Value) (append : Bool) :
    b.Edited (b.addHook hook function append) :=
  Edited.aside rfl rfl rfl rfl

theorem edited_removeHook (hook : String) (function : Value) :
    b.Edited (b.removeHook hook function) :=
  Edited.aside rfl rfl rfl rfl

end Edits

end EditorLisp.Buffer
