import EditorLisp.Primitives.Buffer
import EditorLisp.Primitives.Motion
import EditorLisp.Primitives.Search
import EditorLisp.Primitives.Window
import EditorLisp.Proofs.Primitives.Values

/-!
# Buffers and windows

The primitives that change the workspace.  Most of them hand a function to the workspace
or to the current buffer.  The others read the workspace, make a new one and put it back;
those are followed from the session in which they read.
-/

namespace EditorLisp.Primitives

open Eval Eval.Restores

variable (I : Interp) [I.Restores] (args : List Value) (v : Value)

/-! ## Editing -/

section Editing

instance (b : Buffer) : Restores (offsetIn b v) := by
  unfold offsetIn
  dsimp only
  split <;> infer_instance

instance (i : Nat) : Restores (countArg args i) := by
  unfold countArg
  infer_instance

instance (first second : Value) : Restores (region first second) := by
  unfold region
  infer_instance

instance : Restores (insertionText v) := by
  unfold insertionText
  split
  · infer_instance
  · infer_instance
  · split <;> infer_instance
  · infer_instance
  · infer_instance
  · infer_instance
  · infer_instance

instance : Restores (insert I args) := by
  unfold insert
  infer_instance

instance : Restores (insertChar I args) := by
  unfold insertChar
  dsimp only
  refine after fun _ => ?_
  split <;> infer_instance

instance : Restores (newline I args) := by
  unfold newline
  infer_instance

instance : Restores (eraseBuffer I args) := by
  unfold eraseBuffer
  infer_instance

instance : Restores (deleteRegion I args) := by
  unfold deleteRegion
  infer_instance

instance : Restores (deleteChar I args) := by
  unfold deleteChar
  infer_instance

instance : Restores (deleteBlankLines I args) := by
  unfold deleteBlankLines
  infer_instance

instance : Restores (substCharInRegion I args) := by
  unfold substCharInRegion
  refine after fun _ => after fun source => after fun target => ?_
  split <;> infer_instance

instance : Restores (untabify I args) := by
  unfold untabify
  infer_instance

instance : Restores (indentTo I args) := by
  unfold indentTo
  infer_instance

theorem edited_nextRow (b : Buffer) (column : Nat) : b.Edited (nextRow b column) := by
  unfold nextRow
  dsimp only
  have reached (b' : Buffer) (edited : b.Edited b') : b.Edited
      (if (b'.moveToColumn column).2 < column then
        (b'.moveToColumn column).1.insert
          (Format.copies ' ' (column - (b'.moveToColumn column).2))
      else (b'.moveToColumn column).1) := by
    have moved := edited.trans (Buffer.edited_moveToColumn b' column)
    split
    · exact moved.trans (Buffer.edited_insert _ _)
    · exact moved
  apply reached
  split
  · exact (Buffer.edited_goto b _).trans (Buffer.edited_insert _ _)
  · exact Buffer.edited_goto b _

/-- The rows of a rectangle are inserted one below the other. -/
instance editedBy_rows (lines : List String) : Buffer.EditedBy fun b =>
    match lines with
    | [] => b
    | first :: rest =>
        rest.foldl (fun b' line => (nextRow b' b.column).insert line) (b.insert first) where
  edited b := by
    cases lines with
    | nil => exact Buffer.Edited.refl b
    | cons first rest =>
        have rows (rest : List String) (b' : Buffer) : b'.Edited
            (rest.foldl (fun b' line => (nextRow b' b.column).insert line) b') := by
          induction rest generalizing b' with
          | nil => exact Buffer.Edited.refl b'
          | cons line rest ih =>
              have one := (edited_nextRow b' b.column).trans (Buffer.edited_insert _ line)
              exact one.trans (ih _)
        exact (Buffer.edited_insert b first).trans (rows rest _)

instance : Restores (insertRectangle I args) := by
  unfold insertRectangle
  infer_instance

instance : Restores (appendToBuffer I args) := by
  unfold appendToBuffer
  dsimp only
  refine after fun _ => ?_
  split <;> infer_instance

instance : Restores (insertBufferSubstring I args) := by
  unfold insertBufferSubstring
  dsimp only
  refine after fun _ => after fun source => after fun w => ?_
  split
  · infer_instance
  · split
    · refine after fun v => ?_
      split <;> infer_instance
    · split <;> infer_instance

instance : AllRestore I editing := by
  unfold editing
  repeat refine .cons ?_
  exact .nil

end Editing

/-! ## Motion -/

section Motion

instance (name : String) (f : Buffer → Value) : Restores (asking name f I args) := by
  unfold asking
  infer_instance

instance : Restores (gotoChar I args) := by
  unfold gotoChar
  infer_instance

instance : Restores (bufferSize I args) := by
  unfold bufferSize
  infer_instance

/-- The buffer that is put back is the current one with its point moved. -/
theorem restores_moved (n : Int64) : Restores (do
    let (b, _) ← granted ((← currentBuffer).forwardChar? n)
    Eval.modifyCurrent fun _ => b
    return Value.nil) where
  restores s wf := by
    obtain ⟨id, b, there, foundId, found⟩ := currentBuffer_of_wellFormed wf
    rw [Eval.bind_of_ok _ found]
    cases moved : b.forwardChar? n with
    | none => trivial
    | some answer =>
        obtain ⟨b', whole⟩ := answer
        have written := replaced wf there (Buffer.edited_forwardChar? b moved)
        have chosen : Eval.granted (some (b', whole)) s = .ok (b', whole) s := rfl
        have done : Eval.modifyCurrent (fun _ => b') s = .ok () _ :=
          (Eval.bind_of_ok _ foundId).trans rfl
        rw [Eval.bind_of_ok _ chosen]
        show ((Eval.modifyCurrent fun _ => b') >>= fun _ => Pure.pure Value.nil) s |>.Leaves _
        rw [Eval.bind_of_ok _ done]
        exact written

instance (name : String) (backward : Bool) : Restores (charMotion name backward I args) := by
  unfold charMotion
  refine after fun _ => after fun n => ?_
  split
  · exact after fun n => restores_moved n
  · exact after fun n => restores_moved n

instance : Restores (forwardLine I args) := by
  unfold forwardLine
  infer_instance

instance (b : Buffer) (n : Int64) (f : Buffer → Nat) : Restores (atLine b n f) := by
  unfold atLine
  infer_instance

instance (name : String) (f : Buffer → Nat) : Restores (lineMotion name f I args) := by
  unfold lineMotion
  infer_instance

instance (name : String) (f : Buffer → Nat) : Restores (linePosition name f I args) := by
  unfold linePosition
  infer_instance

instance : Restores (countLines I args) := by
  unfold countLines
  infer_instance

instance (b : Buffer) (v : Option Value) : Restores (freeOffset b v) := by
  unfold freeOffset
  split <;> infer_instance

instance : Restores (charAfter I args) := by
  unfold charAfter
  infer_instance

instance : Restores (charBefore I args) := by
  unfold charBefore
  refine after fun _ => after fun b => after fun offset => ?_
  split <;> infer_instance

/-- Blanks may be added where a line is too short for a column. -/
instance editedBy_moveToColumn (column : Nat) (force : Bool) : Buffer.EditedBy fun b =>
    (match b.moveToColumn column with
    | (b, reached) =>
        if force && reached < column then
          (column, b.insert (Format.copies ' ' (column - reached)))
        else (reached, b)).2 where
  edited b := by
    have moved := Buffer.edited_moveToColumn b column
    dsimp only
    split
    · exact moved.trans (Buffer.edited_insert _ _)
    · exact moved

instance : Restores (moveToColumn I args) := by
  unfold moveToColumn
  infer_instance

instance (name : String) (backward : Bool) : Restores (wordMotion name backward I args) := by
  unfold wordMotion
  infer_instance

instance : Restores (skipCharsForward I args) := by
  unfold skipCharsForward
  dsimp only
  refine after fun _ => after fun spec => after fun b => ?_
  split <;> infer_instance

instance : Restores (skipCharsBackward I args) := by
  unfold skipCharsBackward
  dsimp only
  refine after fun _ => after fun spec => after fun b => ?_
  split <;> infer_instance

instance : Restores (bufferString I args) := by
  unfold bufferString
  infer_instance

instance : Restores (bufferSubstring I args) := by
  unfold bufferSubstring
  infer_instance

instance : AllRestore I motion := by
  unfold motion
  repeat refine .cons ?_
  exact .nil

end Motion

/-! ## Buffers as objects -/

section Buffers

instance : Restores (currentBufferOf I args) := by
  unfold currentBufferOf
  infer_instance

instance : Restores (setBuffer I args) := by
  unfold setBuffer
  infer_instance

instance : Restores (bufferName I args) := by
  unfold bufferName
  dsimp only
  refine after fun _ => ?_
  split <;> refine after fun _ => after fun _ => ?_ <;> split <;> infer_instance

instance : Restores (getBuffer I args) := by
  unfold getBuffer
  refine restores_unary fun v => ?_
  split <;> infer_instance

instance : Restores (getBufferCreate I args) := by
  unfold getBufferCreate
  refine after fun _ => ?_
  split <;> infer_instance

instance : Restores (generateNewBuffer I args) := by
  unfold generateNewBuffer
  infer_instance

instance : Restores (generateNewBufferName I args) := by
  unfold generateNewBufferName
  infer_instance

instance : Restores (bufferList I args) := by
  unfold bufferList
  infer_instance

instance : Restores (bufferLiveP I args) := by
  unfold bufferLiveP
  refine restores_unary fun v => ?_
  split <;> infer_instance

/-- The workspace without the buffer is put back at once. -/
theorem restores_killing (id : Nat) : Restores (do
    match (← workspace).kill? id with
    | some w =>
      modifyWorkspace fun _ => w
      return .t
    | none => return Value.nil) := by
  refine reading fun s wf => ?_
  cases killed : s.workspace.kill? id with
  | none => exact restores (m := Pure.pure Value.nil) s wf
  | some w =>
      exact leaves_putting (Workspace.kill?_cases wf killed).1 (Workspace.evolves_kill? wf killed)
        (Pure.pure Value.t)

instance : Restores (killBuffer I args) := by
  unfold killBuffer
  dsimp only
  refine after fun _ => ?_
  split <;> exact after restores_killing

instance : Restores (buryBuffer I args) := by
  unfold buryBuffer
  infer_instance

instance : Restores (showBuffer v) := by
  unfold showBuffer
  split <;> infer_instance

instance : Restores (switchToBuffer I args) := by
  unfold switchToBuffer
  infer_instance

instance : Restores (displayBuffer I args) := by
  unfold displayBuffer
  infer_instance

instance : Restores (renameBuffer I args) := by
  unfold renameBuffer
  refine after fun _ => after fun base => after fun id => reading fun s wf => ?_
  cases renamed : s.workspace.rename? id (if flag args 1 then s.workspace.newName base else base) with
  | none =>
      simp only
      exact restores s wf
  | some w =>
      simp only
      apply leaves_putting (Workspace.wellFormed_rename? wf renamed)
      exact ⟨(Workspace.rearranges_rename? renamed).toFollows,
        fun ordered => by rwa [Workspace.windows_rename? renamed]⟩

instance : Restores (bufferModifiedP I args) := by
  unfold bufferModifiedP
  infer_instance

instance (flag : Bool) : Buffer.EditedBy fun b => { b with modified := flag } :=
  ⟨fun _ => Buffer.Edited.aside rfl rfl rfl rfl⟩

instance : Restores (setBufferModifiedP I args) := by
  unfold setBufferModifiedP
  infer_instance

instance : Restores (makeLocalVariable I args) := by
  unfold makeLocalVariable
  infer_instance

instance : Restores (makeVariableBufferLocal I args) := by
  unfold makeVariableBufferLocal
  have declared (name : String) : Session.RestoredBy fun s =>
      let s := if s.globals.contains name then s else s.setGlobal name .nil
      let s := s.declareSpecial name
      { s with autoLocal := s.autoLocal.insert name () } := by
    refine ⟨fun s wf => ?_⟩
    dsimp only
    split <;> exact .of_aside wf ⟨rfl, rfl, rfl, rfl, rfl, rfl, rfl⟩
  infer_instance

instance : Restores (killLocalVariable I args) := by
  unfold killLocalVariable
  infer_instance

instance : Restores (bufferLocalValue I args) := by
  unfold bufferLocalValue
  refine restores_binary fun v designator => ?_
  refine after fun name => after fun id => after fun s => ?_
  split <;> infer_instance

instance : Restores (localVariableP I args) := by
  unfold localVariableP
  infer_instance

instance : Restores (bufferLocalVariables I args) := by
  unfold bufferLocalVariables
  refine after fun _ => after fun id => after fun w => ?_
  split <;> infer_instance

instance : AllRestore I buffers := by
  unfold buffers
  repeat refine .cons ?_
  exact .nil

end Buffers

/-! ## Windows -/

section Windows

instance : Restores selectedWindow := by
  unfold selectedWindow
  infer_instance

instance : Restores (openWindow v) := by
  unfold openWindow
  split <;> infer_instance

instance (win : Nat) : Restores (shownBuffer win) := by
  unfold shownBuffer
  refine after fun w => ?_
  split <;> infer_instance

instance (name : String) (maximum : Nat) (f : Nat → Eval Value) [∀ win, Restores (f win)] :
    Restores (onWindow name maximum f I args) := by
  unfold onWindow
  infer_instance

instance : Restores (selectedWindowOf I args) := by
  unfold selectedWindowOf
  infer_instance

instance : Restores (Primitives.selectWindow I args) := by
  unfold Primitives.selectWindow
  infer_instance

instance : Restores (Primitives.setWindowBuffer I args) := by
  unfold Primitives.setWindowBuffer
  infer_instance

instance : Restores (getBufferWindow I args) := by
  unfold getBufferWindow
  dsimp only
  refine after fun _ => after fun w => ?_
  split <;> infer_instance

instance : Restores (windowList I args) := by
  unfold windowList
  infer_instance

instance : Restores (windowLiveP I args) := by
  unfold windowLiveP
  refine restores_unary fun v => ?_
  split <;> infer_instance

instance (win : Nat) (f : Buffer → Nat) : Restores (ofShown win f) := by
  unfold ofShown
  infer_instance

instance : Restores (setWindowPoint I args) := by
  unfold setWindowPoint
  refine restores_binary fun v pos => after fun win => after fun id => ?_
  infer_instance

instance (win : Nat) : Restores (splitWindow win) := by
  unfold splitWindow
  refine reading fun s wf => ?_
  cases opened : s.workspace.splitWindow? win with
  | none => exact restores (m := Eval.error "Window too small for splitting") s wf
  | some created =>
      obtain ⟨split, arranged⟩ := Workspace.splitWindow?_cases wf opened
      exact leaves_putting split
        ⟨arranged.toFollows, fun ordered => Workspace.ordered_splitWindow? ordered opened⟩
        (Pure.pure (Value.window created.1))

instance (win : Nat) : Restores (deleteWindow win) := by
  unfold deleteWindow
  refine reading fun s wf => ?_
  cases deleted : s.workspace.deleteWindow? win with
  | none =>
      exact restores (m := Eval.error "Attempt to delete minibuffer or sole ordinary window") s wf
  | some w =>
      obtain ⟨closed, arranged⟩ := Workspace.deleteWindow?_cases wf deleted
      exact leaves_putting closed
        ⟨arranged.toFollows, fun ordered => Workspace.ordered_deleteWindow? ordered deleted⟩
        (Pure.pure Value.nil)

instance (win : Nat) : Restores (deleteOtherWindows win) := by
  unfold deleteOtherWindows
  infer_instance

instance : Restores (currentWindowConfiguration I args) := by
  unfold currentWindowConfiguration
  infer_instance

instance : Restores (setWindowConfiguration I args) := by
  unfold setWindowConfiguration
  refine after fun _ => after fun s => ?_
  split <;> infer_instance

instance (name : String) (maximum : Nat) (answer : Eval Value) [Restores answer] :
    Restores (frameFact name maximum answer I args) := by
  unfold frameFact
  infer_instance

instance : AllRestore I windows := by
  unfold windows
  repeat refine .cons ?_
  exact .nil

end Windows

/-! ## Searching -/

section Searching

instance (m : Option MatchData) : Restores (setMatchData m) := by
  unfold setMatchData
  infer_instance

instance (source : String) (backward : Bool) : Restores (searchBuffer source args backward) := by
  unfold searchBuffer
  refine after fun p => after fun id => after fun count => ?_
  generalize (backward != decide (count.toInt < 0)) = backward
  dsimp only
  refine after fun b => ?_
  have search (bound : Nat) : Restores (do
      match searchTimes p (b.text.toList) bound backward (max count.toInt.natAbs 1) b.point none with
      | some spans =>
        setMatchData (some ⟨recorded spans 1, .buffer id⟩)
        modifyCurrent (·.goto (if backward then spans.whole.1 else spans.whole.2))
        return position (if backward then spans.whole.1 else spans.whole.2)
      | none =>
        setMatchData none
        match arg args 2 with
        | .nil => signal "search-failed" [← text source]
        | .t => return .nil
        | _ =>
          modifyCurrent (·.goto bound)
          return .nil : Eval Value) := by
    split
    · infer_instance
    · refine after fun _ => ?_
      split <;> infer_instance
  split
  · exact after fun bound => branch inferInstance (search bound)
  · exact after fun limit => after fun offset => after fun bound =>
      branch inferInstance (search bound)

instance (name : String) (literal backward : Bool) :
    Restores (search name literal backward I args) := by
  unfold search
  infer_instance

instance (record : Bool) : Restores (lookingAt record v) := by
  unfold lookingAt
  infer_instance

instance : Restores (lookingAtForm I args) := by
  unfold lookingAtForm
  infer_instance

instance (name : String) (maximum : Nat) (record : Bool) :
    Restores (stringMatch name maximum record I args) := by
  unfold stringMatch
  refine after fun _ => after fun pattern => after fun p => after fun s => after fun start => ?_
  dsimp only
  split
  · infer_instance
  · split
    · refine after fun _ => ?_
      split <;> infer_instance
    · split <;> infer_instance

instance (name : String) (side : Int × Int → Int) : Restores (matchEnd name side I args) := by
  unfold matchEnd
  refine restores_unary fun v => after fun n => after fun s => ?_
  split <;> infer_instance

instance : Restores (matchString I args) := by
  unfold matchString
  refine after fun _ => after fun n => after fun source => after fun s => ?_
  split <;> infer_instance

instance : Restores (matchDataList I args) := by
  unfold matchDataList
  infer_instance

instance : Restores (matchPosition v) := by
  unfold matchPosition
  infer_instance

instance : Restores (matchSpans args) := by
  fun_induction matchSpans <;> infer_instance

instance : Restores (setMatchDataForm I args) := by
  unfold setMatchDataForm
  infer_instance

instance (id : Nat) (span : Int × Int) (replacement : String) :
    Restores (replaceInBuffer id span replacement) := by
  unfold replaceInBuffer
  refine after fun w => ?_
  split
  · infer_instance
  · split <;> infer_instance

instance : Restores (replaceMatch I args) := by
  unfold replaceMatch
  refine after fun _ => after fun template => after fun source => after fun n => after fun s => ?_
  split
  · infer_instance
  · split
    · infer_instance
    · dsimp only
      split <;> infer_instance

instance (replacement : Value) (literal : Bool) (group : Nat) (chars : List Char) (done : Nat)
    (out : String) (matched : List (Regexp.Captures chars)) :
    Restores (replaceMatches I replacement literal group chars done out matched) := by
  induction matched generalizing done out with
  | nil =>
      unfold replaceMatches
      infer_instance
  | cons found more ih =>
      unfold replaceMatches
      dsimp only
      split
      · split <;> infer_instance
      · refine after fun _ => after fun _ => after fun _ => after fun _ => ?_
        split <;> infer_instance

instance : Restores (replaceRegexpInString I args) := by
  unfold replaceRegexpInString
  infer_instance

instance : AllRestore I searches := by
  unfold searches
  repeat refine .cons ?_
  exact .nil

end Searching

end EditorLisp.Primitives
