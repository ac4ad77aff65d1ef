import EditorLisp.Proofs.Document.Edits
import EditorLisp.Proofs.Document.Lines
import EditorLisp.Proofs.Number.Numeral
import EditorLisp.Proofs.Primitives.Search

/-!
# Positions as arguments

Positions count from one, and a position outside of the text stands for the nearest one inside.
Every primitive that takes a position or a distance first computes the offset or the target that it
means, in a machine word, and brings that into the text.  So the result is the nearest position in
the sense of mathematical integers as long as the machine word holds what is computed, and where it
does not the run ends: one below the least integer, or beyond the greatest one when the point is
added to a distance.
-/

namespace EditorLisp

/-- The position nearest to an integer in a text of so many characters. -/
def nearest (size : Nat) (n : Int) : Nat := (max 1 (min n (size + 1))).toNat

section Nearest

variable (size : Nat) (n : Int)

theorem nearest_bounds : 1 ≤ nearest size n ∧ nearest size n ≤ size + 1 := by
  unfold nearest
  omega

/-- The position before the nearest one, counted from zero. -/
theorem nearest_sub_one : nearest size n - 1 = (max 0 (min (n - 1) size)).toNat := by
  unfold nearest
  omega

end Nearest

/-- One buffer is another one now, and nothing else has changed. -/
structure Session.Changes (s : Session) (b b' : Buffer) (t : Session) : Prop where
  changed : t.workspace.buffer? b.id = some b'
  others : ∀ id, id ≠ b.id → t.workspace.buffer? id = s.workspace.buffer? id
  rest : t = { s with workspace := { s.workspace with buffers := t.workspace.buffers } }

theorem Session.changes_changing {s : Session} {b : Buffer} (f : Buffer → Buffer)
    (there : s.workspace.buffer? b.id = some b) : s.Changes b (f b) (s.changing b.id f) where
  changed := by
    rw [Session.changing, Workspace.buffer?_modifyBuffer, if_pos rfl, there, Option.map_some]
  others id other := (Workspace.buffer?_modifyBuffer ..).trans (if_neg other.symm)
  rest := rfl

/-- A step that answers and changes one buffer where a condition holds, and otherwise ends the run
before anything is changed. -/
structure ChangesIf (holds : Prop) (s : Session) (b b' : Buffer) (value : Value)
    (o : Outcome Value) : Prop where
  changes : holds → ∃ t, o = .ok value t ∧ s.Changes b b' t
  crashes : ¬holds → o = .crashed s

namespace Buffer

/-- A buffer with the point at a position. -/
def pointAt (b : Buffer) (pos : Nat) : Buffer := { b with point := pos - 1 }

theorem clamp_eq_nearest (b : Buffer) (n : Int) :
    b.clamp (n - 1).toNat = nearest b.size n - 1 := by
  rw [nearest_sub_one, clamp]
  omega

theorem goto_nearest (b : Buffer) (n : Int) :
    b.goto (nearest b.size n - 1) = b.pointAt (nearest b.size n) := by
  have inside : nearest b.size n - 1 ≤ b.size := Nat.sub_le_of_le_add (nearest_bounds b.size n).2
  rw [goto, clamp_of_le inside, pointAt]

/-- The target of a motion is computed from the point before it is brought into the text. -/
theorem forwardChar?_eq (b : Buffer) {n : Int64}
    (fits : b.point + n.toInt ≤ Int64.maxValue.toInt) :
    ∃ whole, b.forwardChar? n =
      some (b.pointAt (nearest b.size (b.point + 1 + n.toInt)), whole) := by
  have least := n.minValue_le_toInt
  obtain ⟨target, found, value⟩ := Number.exists_fixed? (n := b.point + n.toInt) (by omega) fits
  have shifted : b.point + 1 + n.toInt - 1 = b.point + n.toInt := by omega
  refine ⟨_, (congrArg (Option.bind · _) found).trans (congrArg some (Prod.ext ?_ rfl))⟩
  rw [pointAt, nearest_sub_one, shifted, ← value]

theorem forwardChar?_eq_none (b : Buffer) {n : Int64}
    (beyond : ¬b.point + n.toInt ≤ Int64.maxValue.toInt) : b.forwardChar? n = none := by
  have none : Number.fixed? (b.point + n.toInt) = none := if_neg fun both => beyond both.2
  unfold forwardChar?
  rw [none]
  rfl

/-- The line that is some lines further on starts after the lines before it; where there are not so
many lines, it is the last one or the first one. -/
theorem StandsAt.lineStart_forwardLine {b : Buffer} {above below : List (List Char)}
    {line : List Char} {column : Nat} (stands : b.StandsAt above line below column b.point)
    (n : Int) :
    let moved := (b.forwardLine (n - 1)).1
    let number := nearest (b.lines.length - 1) (above.length + n)
    moved.lineStart moved.point = (Text.ended (b.lines.take (number - 1))).length := by
  intro moved number
  obtain ⟨-, above', line', below', column', pos, same, stands', length, -, -⟩ :=
    stands.arrives_forwardLine (n - 1)
  have lines : b.lines.length - 1 = above.length + below.length := by
    rw [stands.lines_eq, List.length_append, List.length_cons]
    rfl
  have isNumber : above'.length = number - 1 := by
    rw [length]
    dsimp only [number]
    rw [nearest_sub_one, lines]
    split <;> omega
  have front : b.lines.take (number - 1) = above' := by
    rw [stands'.lines_eq, ← isNumber, List.take_left]
  dsimp only [moved]
  rw [same, stands'.withPoint.lineStart_eq, front]

end Buffer

namespace Primitives

open Eval Text

variable {s : Session} {b shown : Buffer} {m n : Int64} {win : Nat}
  {above below : List (List Char)} {line : List Char} {column : Nat}

/-! ## Offsets of positions -/

theorem eq_least (n : Int64) (least : ¬Int64.minValue < n) : n = Int64.minValue :=
  Int64.le_antisymm (Int64.not_lt.mp least) n.minValue_le

theorem offsetIn_of_lt (b : Buffer) (greater : Int64.minValue < n) (s : Session) :
    offsetIn b (.int n) s = .ok (nearest b.size n.toInt - 1) s := by
  obtain ⟨m, counted, value⟩ := below_eq greater s
  show (Eval.below n >>= fun m => pure (b.clamp m.toInt.toNat)) s = _
  rw [bind_of_ok _ counted, value, b.clamp_eq_nearest]
  rfl

theorem position_nearest (size : Nat) (n : Int) :
    position (nearest size n - 1) = .ofNat (nearest size n) := by
  have positive := (nearest_bounds size n).1
  rw [position, Nat.sub_add_cancel positive]

/-- What is computed from the offsets of two positions. -/
theorem region_cases (editing : s.Editing b) (m n : Int64) :
    (Int64.minValue < m ∧ Int64.minValue < n ∧ region (.int m) (.int n) s =
        .ok (nearest b.size m.toInt - 1, nearest b.size n.toInt - 1) s) ∨
      ¬(Int64.minValue < m ∧ Int64.minValue < n) ∧
        region (.int m) (.int n) s = .crashed s := by
  have called : region (.int m) (.int n) s = (offsetIn b (.int m) >>= fun start =>
      offsetIn b (.int n) >>= fun stop => pure (start, stop)) s :=
    bind_of_ok _ editing.currentBuffer_eq
  rw [called]
  by_cases first : Int64.minValue < m
  · rw [bind_of_ok _ (offsetIn_of_lt b first s)]
    by_cases second : Int64.minValue < n
    · rw [bind_of_ok _ (offsetIn_of_lt b second s)]
      exact .inl ⟨first, second, rfl⟩
    · rw [eq_least n second]
      exact .inr ⟨fun both => Int64.lt_irrefl both.2, rfl⟩
  · rw [eq_least m first]
    exact .inr ⟨fun both => Int64.lt_irrefl both.1, rfl⟩

/-! ## One primitive at a time -/

theorem changesIf_gotoChar (I : Interp) (editing : s.Editing b) (n : Int64) :
    ChangesIf (Int64.minValue < n) s b (b.pointAt (nearest b.size n.toInt))
      (.ofNat (nearest b.size n.toInt)) (callPrimitive I "goto-char" [.int n] s) := by
  have called : gotoChar I [.int n] s = (offsetIn b (.int n) >>= fun offset =>
      modifyCurrent (·.goto offset) >>= fun _ => pure (position offset)) s :=
    (bind_of_ok _ rfl).trans (bind_of_ok _ editing.currentBuffer_eq)
  rw [callPrimitive_gotoChar, called]
  constructor
  · intro greater
    rw [bind_of_ok _ (offsetIn_of_lt b greater s), bind_of_ok _ (editing.modifyCurrent_eq _),
      position_nearest, ← b.goto_nearest]
    exact ⟨_, rfl, s.changes_changing (·.goto _) editing.current_eq.2⟩
  · intro least
    rw [eq_least n least]
    rfl

/-- A motion over a number of characters, once the number is known. -/
theorem changesIf_move (editing : s.Editing b) (n : Int64) :
    ChangesIf (b.point + n.toInt ≤ Int64.maxValue.toInt) s b
      (b.pointAt (nearest b.size (b.point + 1 + n.toInt))) .nil
      ((do let (b, _) ← granted ((← currentBuffer).forwardChar? n)
           modifyCurrent fun _ => b
           return .nil : Eval Value) s) := by
  rw [bind_of_ok _ editing.currentBuffer_eq]
  constructor
  · intro fits
    obtain ⟨whole, moved⟩ := b.forwardChar?_eq fits
    rw [moved]
    refine ⟨_, (bind_of_ok _ rfl).trans (bind_of_ok _ (editing.modifyCurrent_eq _)), ?_⟩
    exact s.changes_changing (fun _ => _) editing.current_eq.2
  · intro beyond
    rw [b.forwardChar?_eq_none beyond]
    rfl

theorem changesIf_forwardChar (I : Interp) (editing : s.Editing b) (n : Int64) :
    ChangesIf (b.point + n.toInt ≤ Int64.maxValue.toInt) s b
      (b.pointAt (nearest b.size (b.point + 1 + n.toInt))) .nil
      (callPrimitive I "forward-char" [.int n] s) := by
  rw [callPrimitive_of_motion I rfl]
  exact changesIf_move editing n

/-- Backward motion negates the number first; the least integer has no negation, but then the
target would be beyond the greatest one as well. -/
theorem changesIf_backwardChar (I : Interp) (editing : s.Editing b) (n : Int64) :
    ChangesIf (b.point - n.toInt ≤ Int64.maxValue.toInt) s b
      (b.pointAt (nearest b.size (b.point + 1 - n.toInt))) .nil
      (callPrimitive I "backward-char" [.int n] s) := by
  rw [callPrimitive_of_motion I rfl]
  have least : Int64.minValue.toInt = -2 ^ 63 := rfl
  have greatest : Int64.maxValue.toInt = 2 ^ 63 - 1 := rfl
  by_cases greater : Int64.minValue < n
  · have above : Int64.minValue.toInt < n.toInt := Int64.lt_iff_toInt_lt.mp greater
    have upTo := n.toInt_le
    rw [least] at above
    rw [greatest] at upTo
    obtain ⟨x, negated, value⟩ : ∃ x, Number.neg? n = some x ∧ x.toInt = -n.toInt :=
      Number.exists_fixed? (by rw [least]; omega) (by rw [greatest]; omega)
    have move := changesIf_move editing x
    rw [value] at move
    have called : charMotion "backward-char" true I [.int n] s =
        (granted (Number.neg? n) >>= fun n => (do
          let (b, _) ← granted ((← currentBuffer).forwardChar? n)
          modifyCurrent fun _ => b
          return .nil : Eval Value)) s := rfl
    rw [called, negated]
    exact move
  · rw [eq_least n greater]
    refine ⟨fun fits => ?_, fun _ => rfl⟩
    rw [least, greatest] at fits
    omega

theorem onBuffer_eq {α : Type} (there : s.workspace.buffer? b.id = some b)
    (f : Buffer → α × Buffer) :
    onBuffer b.id f s = .ok (some (f b).1) (s.changing b.id fun _ => (f b).2) := by
  unfold onBuffer
  refine (bind_of_ok _ rfl).trans ?_
  rw [there]
  rfl

theorem changesIf_setWindowPoint (I : Interp)
    (shows : s.workspace.windowBuffer? win = some shown.id)
    (there : s.workspace.buffer? shown.id = some shown) (n : Int64) :
    ChangesIf (Int64.minValue < n) s shown (shown.pointAt (nearest shown.size n.toInt))
      (.ofNat (nearest shown.size n.toInt))
      (callPrimitive I "set-window-point" [.window win, .int n] s) := by
  have live : s.workspace.windows.isLive win = true := Windows.isLive_of_buffer? shows
  have opened : openWindow (.window win) s = .ok win s := by
    show (if _ then pure win else wrongType _ _ : Eval Nat) s = _
    rw [if_pos live]
    rfl
  have found : shownBuffer win s = .ok shown.id s := by
    refine (bind_of_ok _ rfl).trans ?_
    rw [shows]
    rfl
  have called : setWindowPoint I [.window win, .int n] s = (below n >>= fun m =>
      onBuffer shown.id (fun b => ((b.goto m.toInt.toNat).point, b.goto m.toInt.toNat)) >>=
        fun landed => pure (.ofNat (landed.getD 0 + 1))) s :=
    (bind_of_ok _ rfl).trans ((bind_of_ok _ opened).trans (bind_of_ok _ found))
  rw [callPrimitive_of_windows I rfl, called]
  constructor
  · intro greater
    obtain ⟨m, counted, value⟩ := below_eq greater s
    have landed : shown.goto m.toInt.toNat = shown.pointAt (nearest shown.size n.toInt) := by
      rw [value, Buffer.goto, shown.clamp_eq_nearest, Buffer.pointAt]
    rw [bind_of_ok _ counted, bind_of_ok _ (onBuffer_eq there _), Option.getD_some, landed,
      Buffer.pointAt, Nat.sub_add_cancel (nearest_bounds _ _).1]
    exact ⟨_, rfl, s.changes_changing (fun _ => _) there⟩
  · intro least
    rw [eq_least n least]
    rfl

theorem changesIf_deleteRegion (I : Interp) (editing : s.Editing b) (m n : Int64) :
    ChangesIf (Int64.minValue < m ∧ Int64.minValue < n) s b
      (b.deleteRegion (nearest b.size m.toInt - 1) (nearest b.size n.toInt - 1)) .nil
      (callPrimitive I "delete-region" [.int m, .int n] s) := by
  have called : deleteRegion I [.int m, .int n] s = (region (.int m) (.int n) >>= fun ends =>
      modifyCurrent (·.deleteRegion ends.1 ends.2) >>= fun _ => pure .nil) s :=
    bind_of_ok _ rfl
  rw [callPrimitive_of_editing I rfl, called]
  obtain ⟨first, second, ends⟩ | ⟨least, crashes⟩ := region_cases editing m n
  · rw [bind_of_ok _ ends, bind_of_ok _ (editing.modifyCurrent_eq _)]
    exact ⟨fun _ => ⟨_, rfl, s.changes_changing (·.deleteRegion _ _) editing.current_eq.2⟩,
      fun least => absurd ⟨first, second⟩ least⟩
  · exact ⟨fun both => absurd both least, fun _ => bind_of_crashed _ crashes⟩

theorem bufferSubstring_eq (I : Interp) (editing : s.Editing b) (m n : Int64) :
    callPrimitive I "buffer-substring" [.int m, .int n] s =
      if Int64.minValue < m ∧ Int64.minValue < n then
        Eval.text (b.substring (nearest b.size m.toInt - 1) (nearest b.size n.toInt - 1)) s
      else .crashed s := by
  have called : bufferSubstring I [.int m, .int n] s = (region (.int m) (.int n) >>= fun ends =>
      currentBuffer >>= fun b => Eval.text (b.substring ends.1 ends.2)) s :=
    bind_of_ok _ rfl
  rw [callPrimitive_of_motion I rfl, called]
  obtain ⟨first, second, ends⟩ | ⟨least, crashes⟩ := region_cases editing m n
  · rw [if_pos ⟨first, second⟩, bind_of_ok _ ends, bind_of_ok _ editing.currentBuffer_eq]
  · rw [if_neg least]
    exact bind_of_crashed _ crashes

theorem lineBeginningPosition_eq (I : Interp) (editing : s.Editing b)
    (stands : b.StandsAt above line below column b.point) (n : Int64) :
    callPrimitive I "line-beginning-position" [.int n] s =
      if Int64.minValue < n then
        let number := nearest (b.lines.length - 1) (above.length + n.toInt)
        .ok (position (ended (b.lines.take (number - 1))).length) s
      else .crashed s := by
  have called : linePosition "line-beginning-position" (fun b => b.lineStart b.point) I [.int n] s =
      (atLine b n (fun b => b.lineStart b.point) >>= fun offset => pure (position offset)) s :=
    (bind_of_ok _ rfl).trans ((bind_of_ok _ rfl).trans (bind_of_ok _ editing.currentBuffer_eq))
  rw [callPrimitive_of_motion I rfl, called]
  split
  next greater =>
      obtain ⟨m, counted, value⟩ := below_eq greater s
      have there : atLine b n (fun b => b.lineStart b.point) s = .ok (ended (b.lines.take
          (nearest (b.lines.length - 1) (above.length + n.toInt) - 1))).length s := by
        refine (bind_of_ok _ counted).trans (congrArg (Outcome.ok · s) ?_)
        rw [value]
        exact stands.lineStart_forwardLine n.toInt
      rw [bind_of_ok _ there]
      rfl
  next least =>
      rw [eq_least n least]
      rfl

/-! ## All of them -/

/-- What two positions, brought into the text, leave of it and have between them. -/
theorem ordered_nearest (b : Buffer) (x y : Int) :
    let p := nearest b.size x
    let q := nearest b.size y
    b.ordered (p - 1) (q - 1) = (min p q - 1, max p q - 1) := by
  intro p q
  have first : p ≤ b.size + 1 := (nearest_bounds b.size x).2
  have second : q ≤ b.size + 1 := (nearest_bounds b.size y).2
  apply Prod.ext
  · rw [Buffer.ordered_fst]
    dsimp only
    omega
  · rw [Buffer.ordered_snd]
    dsimp only
    omega

/-- Every primitive that takes positions or distances goes to, or works on, the nearest positions of
the text, as long as the machine word holds what it computes first; `b` is the current buffer and
`shown` the one that a window shows. -/
structure ClampsPositions (I : Interp) (s : Session) (b shown : Buffer) (win : Nat) (m n : Int64) :
    Prop where
  gotoChar : ChangesIf (Int64.minValue < n) s b (b.pointAt (nearest b.size n.toInt))
    (.ofNat (nearest b.size n.toInt)) (callPrimitive I "goto-char" [.int n] s)
  forwardChar : ChangesIf (b.point + n.toInt ≤ Int64.maxValue.toInt) s b
    (b.pointAt (nearest b.size (b.point + 1 + n.toInt))) .nil
    (callPrimitive I "forward-char" [.int n] s)
  backwardChar : ChangesIf (b.point - n.toInt ≤ Int64.maxValue.toInt) s b
    (b.pointAt (nearest b.size (b.point + 1 - n.toInt))) .nil
    (callPrimitive I "backward-char" [.int n] s)
  setWindowPoint : ChangesIf (Int64.minValue < n) s shown
    (shown.pointAt (nearest shown.size n.toInt)) (.ofNat (nearest shown.size n.toInt))
    (callPrimitive I "set-window-point" [.window win, .int n] s)
  /-- What is left are the characters before and after. -/
  deleteRegion :
    let p := nearest b.size m.toInt
    let q := nearest b.size n.toInt
    ∃ b', ChangesIf (Int64.minValue < m ∧ Int64.minValue < n) s b b' .nil
        (callPrimitive I "delete-region" [.int m, .int n] s) ∧
      b'.text.toList = b.text.toList.take (min p q - 1) ++ b.text.toList.drop (max p q - 1)
  /-- The answer is a new string of the characters between. -/
  bufferSubstring :
    let p := nearest b.size m.toInt
    let q := nearest b.size n.toInt
    ∃ out : String, callPrimitive I "buffer-substring" [.int m, .int n] s =
        (if Int64.minValue < m ∧ Int64.minValue < n then Eval.text out s else .crashed s) ∧
      out.toList = (b.text.toList.drop (min p q - 1)).take (max p q - min p q)
  /-- Lines are counted like positions. -/
  lineBeginningPosition : ∃ above line below column,
    b.StandsAt above line below column b.point ∧
      callPrimitive I "line-beginning-position" [.int n] s =
        if Int64.minValue < n then
          let number := nearest (b.lines.length - 1) (above.length + n.toInt)
          .ok (position (ended (b.lines.take (number - 1))).length) s
        else .crashed s

/-- Positions outside of the text stand for the nearest position inside, for all buffers and all
integers with which nothing is computed that leaves the machine words.  With the least integer as a
position, and with a distance from the point to beyond the greatest integer, the run ends. -/
theorem clampsPositions (I : Interp) (editing : s.Editing b)
    (shows : s.workspace.windowBuffer? win = some shown.id)
    (there : s.workspace.buffer? shown.id = some shown) (m n : Int64) :
    ClampsPositions I s b shown win m n where
  gotoChar := changesIf_gotoChar I editing n
  forwardChar := changesIf_forwardChar I editing n
  backwardChar := changesIf_backwardChar I editing n
  setWindowPoint := changesIf_setWindowPoint I shows there n
  deleteRegion := by
    refine ⟨_, changesIf_deleteRegion I editing m n, ?_⟩
    rw [Buffer.toList_deleteRegion, ordered_nearest]
  bufferSubstring := by
    refine ⟨_, bufferSubstring_eq I editing m n, ?_⟩
    have first := (nearest_bounds b.size m.toInt).1
    have second := (nearest_bounds b.size n.toInt).1
    rw [Buffer.toList_substring, ordered_nearest]
    dsimp only
    congr 1
    omega
  lineBeginningPosition := by
    obtain ⟨above, line, below, column, stands⟩ := Buffer.exists_standsAt editing.point_le
    exact ⟨above, line, below, column, stands, lineBeginningPosition_eq I editing stands n⟩

/-- Far from the text on both sides. -/
theorem clampsPositions_far :
    let s := sessionOf "ab\ncd" 4
    let b := bufferOf "ab\ncd" 4
    s.Editing b ∧ s.workspace.windowBuffer? 1 = some b.id ∧
      s.workspace.buffer? b.id = some b ∧
      ClampsPositions .top s b b 1 Int64.maxValue (Int64.minValue + 1) ∧
      nearest b.size (Int64.minValue + 1).toInt = 1 := by
  intro s b
  have editing := editing_sessionOf "ab\ncd" 4
  have shows : s.workspace.windowBuffer? 1 = some b.id := by decide
  have there := editing.current_eq.2
  exact ⟨editing, shows, there, clampsPositions .top editing shows there _ _, by decide⟩

/-- The least integer has no integer before it and no negation, and from the second position on
there is no room for the greatest distance.  The nearest positions, the first and the last one, are
not reached. -/
theorem not_clampsPositions_least :
    let s := sessionOf "ab" 1
    let b := bufferOf "ab" 1
    let least := Value.int Int64.minValue
    s.Editing b ∧ nearest b.size Int64.minValue.toInt = 1 ∧
      nearest b.size (b.point + 1 + Int64.maxValue.toInt) = 3 ∧
      nearest b.size (b.point + 1 - Int64.minValue.toInt) = 3 ∧
      callPrimitive .top "goto-char" [least] s = .crashed s ∧
      callPrimitive .top "forward-char" [.int Int64.maxValue] s = .crashed s ∧
      callPrimitive .top "backward-char" [least] s = .crashed s ∧
      callPrimitive .top "set-window-point" [.window 1, least] s = .crashed s ∧
      callPrimitive .top "delete-region" [least, .int 2] s = .crashed s ∧
      callPrimitive .top "buffer-substring" [least, .int 2] s = .crashed s ∧
      callPrimitive .top "line-beginning-position" [least] s = .crashed s := by
  intro s b least
  have editing := editing_sessionOf "ab" 1
  have shows : s.workspace.windowBuffer? 1 = some b.id := by decide
  obtain ⟨above, line, below, column, stands⟩ := Buffer.exists_standsAt editing.point_le
  refine ⟨editing, by decide, by decide, by decide, ?_, ?_, ?_, ?_, ?_, ?_, ?_⟩
  · exact (changesIf_gotoChar .top editing _).crashes (by decide)
  · exact (changesIf_forwardChar .top editing _).crashes (by decide)
  · exact (changesIf_backwardChar .top editing _).crashes (by decide)
  · exact (changesIf_setWindowPoint .top shows editing.current_eq.2 _).crashes (by decide)
  · exact (changesIf_deleteRegion .top editing _ _).crashes (by decide)
  · exact (bufferSubstring_eq .top editing _ _).trans (if_neg (by decide))
  · exact (lineBeginningPosition_eq .top editing stands _).trans (if_neg (by decide))

end Primitives

end EditorLisp
