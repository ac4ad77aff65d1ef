import EditorLisp.Proofs.Document.Buffer

/-!
# What the modified flag remembers

Every operation on a buffer that changes the text also sets the modified flag, and none
takes the flag back: a search or a movement leaves the text alone, an edit sets the flag
unless it finds nothing to do.  Over a list of calls on a new buffer the point therefore
never leaves the text, and a text that is not what it was at some moment has the flag set,
provided that nobody has cleared the flag since that moment.
-/

namespace EditorLisp

namespace Buffer

/-! ## Marks -/

/-- A change that the modified flag remembers: a flag that was set stays, and another text
sets it. -/
structure Marks (b b' : Buffer) : Prop where
  stays : b.modified = true → b'.modified = true
  marked : b'.text.toList ≠ b.text.toList → b'.modified = true

namespace Marks

variable {b b' b'' : Buffer}

theorem trans (first : b.Marks b') (second : b'.Marks b'') : b.Marks b'' where
  stays set := second.stays (first.stays set)
  marked differs := by
    by_cases same : b''.text.toList = b'.text.toList
    · rw [same] at differs
      exact second.stays (first.marked differs)
    · exact second.marked same

/-- A change that sets the flag in any case. -/
theorem of_modified (set : b'.modified = true) : b.Marks b' := ⟨fun _ => set, fun _ => set⟩

/-- A change that leaves the text and the flag alone. -/
theorem of_same (text : b'.text = b.text) (flag : b'.modified = b.modified) : b.Marks b' where
  stays set := flag.trans set
  marked differs := absurd (congrArg GapText.toList text) differs

@[refl]
theorem refl (b : Buffer) : b.Marks b := of_same rfl rfl

/-- The point may go anywhere. -/
theorem point (b : Buffer) (pos : Nat) : b.Marks { b with point := pos } := of_same rfl rfl

end Marks

section Operations

variable (b : Buffer) (x y : Nat)

theorem marks_deleteRegion : b.Marks (b.deleteRegion x y) where
  stays set := by simp [deleteRegion, set]
  marked differs := by
    simp only [deleteRegion, Bool.or_eq_true, bne_iff_ne]
    right
    intro nothing
    apply differs
    simp only [deleteRegion, nothing, GapText.delete, if_true]

theorem marks_deleteChar (n : Int) : b.Marks (b.deleteChar n) := by
  rw [deleteChar]
  split <;> exact marks_deleteRegion b _ _

/-- Replacements are counted, and a text in which none was made is the one before. -/
theorem substFrom_cases (text : GapText) (source target : Char) (pos room changed : Nat) :
    changed < (substFrom text source target pos room changed).2 ∨
      (substFrom text source target pos room changed).2 = changed ∧
        (substFrom text source target pos room changed).1 = text := by
  induction room generalizing text pos changed with
  | zero => exact Or.inr ⟨rfl, rfl⟩
  | succ room ih =>
      rw [substFrom]
      split
      next found =>
          have rest := ih (text.replaceAt pos target).2 (pos + 1) (changed + 1)
          left
          rcases rest with more | ⟨same, -⟩
          · exact Nat.lt_of_succ_lt more
          · rw [same]
            exact Nat.lt_succ_self changed
      next other => exact ih text (pos + 1) changed

theorem marks_substChar (source target : Char) :
    b.Marks (b.substChar x y source target).1 where
  stays set := by simp [substChar, set]
  marked differs := by
    have counted := substFrom_cases b.text source target (b.ordered x y).1
      ((b.ordered x y).2 - (b.ordered x y).1) 0
    simp only [substChar, Bool.or_eq_true, bne_iff_ne]
    right
    rcases counted with more | ⟨-, same⟩
    · exact Nat.ne_of_gt more
    · exact absurd (congrArg GapText.toList same) differs

theorem marks_deleteBlankLines : b.Marks b.deleteBlankLines := by
  simp only [deleteBlankLines]
  split
  · split
    · exact marks_deleteRegion b _ _
    · exact (marks_deleteRegion b _ _).trans (.point _ _)
  · split
    · exact marks_deleteRegion b _ _
    · exact Marks.refl b

theorem marks_moveLines {step : Buffer → Buffer × Bool}
    (one : ∀ b : Buffer, b.Marks (step b).1) (n : Nat) : b.Marks (moveLines step n b).1 := by
  induction n generalizing b with
  | zero => exact Marks.refl b
  | succ n ih =>
      have first := one b
      rw [moveLines]
      split
      next moved => rw [moved] at first; exact first.trans (ih _)
      next stuck => rw [stuck] at first; exact first

theorem marks_lineDown (column : Nat) : b.Marks (b.lineDown column).1 := by
  rw [lineDown]
  split <;> exact .of_same rfl rfl

theorem marks_lineUp (column : Nat) : b.Marks (b.lineUp column).1 := by
  rw [lineUp]
  split <;> exact .of_same rfl rfl

theorem marks_forwardLine (n : Int) : b.Marks (b.forwardLine n).1 := by
  rw [forwardLine]
  split
  · exact marks_moveLines b (fun b => marks_lineDown b _) _
  · exact marks_moveLines b (fun b => marks_lineUp b _) _

theorem marks_untabify : b.Marks (b.untabify x y) := marks_substChar b x y '\t' ' '

theorem marks_forwardChar? {n : Int64} {b' : Buffer} {whole : Bool}
    (moved : b.forwardChar? n = some (b', whole)) : b.Marks b' := by
  rw [forwardChar?] at moved
  obtain ⟨fixed, -, moved⟩ := Option.bind_eq_some_iff.mp moved
  cases moved
  exact .of_same rfl rfl

theorem marks_moveToColumn? {column reached : Nat} {b' : Buffer}
    (moved : b.moveToColumn? column = some (b', reached)) : b.Marks b' := by
  unfold moveToColumn? at moved
  split at moved
  next =>
    cases moved
    exact .of_same rfl rfl
  next => cases moved

end Operations

end Buffer

/-! ## Calls -/

/-- A call of an operation on a buffer, or an assignment to the modified flag. -/
inductive BufferCall where
  | insert (s : String)
  | insertAt (pos : Nat) (s : String)
  | deleteRegion (x y : Nat)
  | replaceRegion (x y : Nat) (s : String)
  | erase
  | deleteChar (n : Int)
  | substChar (x y : Nat) (source target : Char)
  | untabify (x y : Nat)
  | goto (pos : Nat)
  | forwardLine (n : Int)
  | moveToColumn (column : Nat)
  | deleteBlankLines
  | forwardChar (n : Int64)
  | forwardWord (n : Nat)
  | backwardWord (n : Nat)
  | skipForward (accept : Char → Bool) (limit : Nat)
  | skipBackward (accept : Char → Bool) (limit : Nat)
  | setModified (flag : Bool)

namespace BufferCall

/-- The buffer after a call.  Only movements by characters and to a column can fail, where the
position that they count to does not fit a machine word. -/
def perform? (b : Buffer) : BufferCall → Option Buffer
  | insert s => some (b.insert s)
  | insertAt pos s => some (b.insertAt pos s)
  | deleteRegion x y => some (b.deleteRegion x y)
  | replaceRegion x y s => some (b.replaceRegion x y s)
  | erase => some b.erase
  | deleteChar n => some (b.deleteChar n)
  | substChar x y source target => some (b.substChar x y source target).1
  | untabify x y => some (b.untabify x y)
  | goto pos => some (b.goto pos)
  | forwardLine n => some (b.forwardLine n).1
  | moveToColumn column => (b.moveToColumn? column).map Prod.fst
  | deleteBlankLines => some b.deleteBlankLines
  | forwardChar n => (b.forwardChar? n).map Prod.fst
  | forwardWord n => some (b.forwardWord n)
  | backwardWord n => some (b.backwardWord n)
  | skipForward accept limit => some (b.skipForward accept limit).1
  | skipBackward accept limit => some (b.skipBackward accept limit).1
  | setModified flag => some { b with modified := flag }

/-- Make calls one after the other as long as none of them fails. -/
def run? : List BufferCall → Buffer → Option Buffer
  | [], b => some b
  | call :: calls, b => (call.perform? b).bind (run? calls)

/-- A movement that counts to a position beyond machine words, which are signed for a movement
by characters and unsigned for one to a column. -/
def Beyond (b : Buffer) : BufferCall → Prop
  | forwardChar n => Number.fixed? (b.point + n.toInt) = none
  | moveToColumn column => Number.twoTo 64 ≤ b.lineStart b.point + column
  | _ => False

/-- A call that clears the modified flag. -/
def Clears : BufferCall → Prop
  | setModified flag => flag = false
  | _ => False

variable {b b' : Buffer} {call : BufferCall}

theorem of_some {P : Buffer → Prop} {made : Buffer} (holds : P made)
    (done : some made = some b') : P b' :=
  Option.some.inj done ▸ holds

theorem edited_perform? (done : call.perform? b = some b') : b.Edited b' := by
  cases call with
  | forwardChar n =>
      obtain ⟨⟨_, whole⟩, moved, rfl⟩ := Option.map_eq_some_iff.mp done
      exact Buffer.edited_forwardChar? b moved
  | moveToColumn column =>
      obtain ⟨⟨_, reached⟩, moved, rfl⟩ := Option.map_eq_some_iff.mp done
      exact Buffer.edited_moveToColumn? b moved
  | insert s => exact of_some (Buffer.edited_insert b s) done
  | insertAt pos s => exact of_some (Buffer.edited_insertAt b pos s) done
  | deleteRegion x y => exact of_some (Buffer.edited_deleteRegion b x y) done
  | replaceRegion x y s => exact of_some (Buffer.edited_replaceRegion b x y s) done
  | erase => exact of_some (Buffer.edited_erase b) done
  | deleteChar n => exact of_some (Buffer.edited_deleteChar b n) done
  | substChar x y source target => exact of_some (Buffer.edited_substChar b x y source target) done
  | untabify x y => exact of_some (Buffer.edited_untabify b x y) done
  | goto pos => exact of_some (Buffer.edited_goto b pos) done
  | forwardLine n => exact of_some (Buffer.edited_forwardLine b n) done
  | deleteBlankLines => exact of_some (Buffer.edited_deleteBlankLines b) done
  | forwardWord n => exact of_some (Buffer.edited_forwardWord b n) done
  | backwardWord n => exact of_some (Buffer.edited_backwardWord b n) done
  | skipForward accept limit => exact of_some (Buffer.edited_skipForward b accept limit) done
  | skipBackward accept limit => exact of_some (Buffer.edited_skipBackward b accept limit) done
  | setModified flag =>
      obtain rfl := Option.some.inj done
      exact .aside rfl rfl rfl rfl

theorem marks_perform? (done : call.perform? b = some b') (keeps : ¬ call.Clears) :
    b.Marks b' := by
  cases call with
  | insert s | insertAt pos s | replaceRegion x y s | erase =>
      obtain rfl := Option.some.inj done
      exact .of_modified rfl
  | goto pos | forwardWord n | backwardWord n
  | skipForward accept limit | skipBackward accept limit =>
      obtain rfl := Option.some.inj done
      exact .of_same rfl rfl
  | deleteRegion x y => exact of_some (Buffer.marks_deleteRegion b x y) done
  | deleteChar n => exact of_some (Buffer.marks_deleteChar b n) done
  | substChar x y source target => exact of_some (Buffer.marks_substChar b x y source target) done
  | untabify x y => exact of_some (Buffer.marks_untabify b x y) done
  | forwardLine n => exact of_some (Buffer.marks_forwardLine b n) done
  | deleteBlankLines => exact of_some (Buffer.marks_deleteBlankLines b) done
  | forwardChar n =>
      obtain ⟨⟨_, whole⟩, moved, rfl⟩ := Option.map_eq_some_iff.mp done
      exact Buffer.marks_forwardChar? b moved
  | moveToColumn column =>
      obtain ⟨⟨_, reached⟩, moved, rfl⟩ := Option.map_eq_some_iff.mp done
      exact Buffer.marks_moveToColumn? b moved
  | setModified flag =>
      cases flag with
      | false => exact absurd rfl keeps
      | true =>
          obtain rfl := Option.some.inj done
          exact .of_modified rfl

/-! ## Runs -/

theorem edited_run? (calls : List BufferCall) (done : run? calls b = some b') : b.Edited b' := by
  induction calls generalizing b with
  | nil => cases done; exact .refl _
  | cons call calls ih =>
      obtain ⟨next, one, rest⟩ := Option.bind_eq_some_iff.mp done
      exact (edited_perform? one).trans (ih rest)

theorem marks_run? (calls : List BufferCall) (done : run? calls b = some b')
    (keeps : ∀ call ∈ calls, ¬ call.Clears) : b.Marks b' := by
  induction calls generalizing b with
  | nil => cases done; exact .refl _
  | cons call calls ih =>
      obtain ⟨next, one, rest⟩ := Option.bind_eq_some_iff.mp done
      rw [List.forall_mem_cons] at keeps
      exact (marks_perform? one keeps.1).trans (ih rest keeps.2)

theorem run?_append (before after : List BufferCall) (b : Buffer) :
    run? (before ++ after) b = (run? before b).bind (run? after) := by
  induction before generalizing b with
  | nil => rfl
  | cons call calls ih =>
      rw [List.cons_append, run?, run?]
      cases call.perform? b with
      | none => rfl
      | some next => exact ih next

theorem perform?_eq_none_iff : call.perform? b = none ↔ call.Beyond b := by
  cases call with
  | forwardChar n =>
      cases fixed : Number.fixed? (b.point + n.toInt) <;>
        simp [perform?, Beyond, Buffer.forwardChar?, fixed]
  | moveToColumn column => simp [perform?, Beyond, Buffer.moveToColumn?]
  | _ => simp [perform?, Beyond]

/-- A run that stops has made some of its calls and then met a movement beyond machine words. -/
theorem run?_eq_none (calls : List BufferCall) (stopped : run? calls b = none) :
    ∃ before call after reached, calls = before ++ call :: after ∧
      run? before b = some reached ∧ call.Beyond reached := by
  induction calls generalizing b with
  | nil => cases stopped
  | cons call calls ih =>
      cases one : call.perform? b with
      | none => exact ⟨[], call, calls, b, rfl, rfl, perform?_eq_none_iff.mp one⟩
      | some next =>
          rw [run?, one] at stopped
          obtain ⟨before, beyond, after, reached, rfl, run, far⟩ := ih stopped
          refine ⟨call :: before, beyond, after, reached, rfl, ?_, far⟩
          rw [run?, one]
          exact run

/-- Any list of calls on a new buffer: the point stays in the text, and a text that differs
from what it was at a moment since which the flag was not cleared has the flag set.  The
calls are all made unless one of them is a movement beyond machine words. -/
theorem point_le_and_modified_of_run? (id : Nat) (name : String) (calls : List BufferCall) :
    (∀ b, run? calls { id, name } = some b →
      b.point ≤ b.size ∧
        ∀ before after saved, calls = before ++ after → (∀ call ∈ after, ¬ call.Clears) →
          run? before { id, name } = some saved → b.content ≠ saved.content →
            b.modified = true) ∧
      (run? calls { id, name } = none →
        ∃ before call after reached, calls = before ++ call :: after ∧
          run? before { id, name } = some reached ∧ call.Beyond reached) := by
  refine ⟨fun b done => ⟨?_, ?_⟩, run?_eq_none calls⟩
  · exact (edited_run? calls done).point_le (Nat.zero_le _)
  · intro before after saved split keeps first differs
    rw [split, run?_append, first] at done
    apply (marks_run? after done keeps).marked
    intro same
    exact differs (congrArg String.ofList same)

/-- The flag is cleared after a first insertion and set again by the replacement of one
character, with the point at the end of the text. -/
theorem modified_after_substChar :
    ∃ b, run? [insert "a\tb", setModified false, forwardChar 5, untabify 3 0]
        { id := 1, name := "notes" } = some b ∧ b.point ≤ b.size ∧ b.modified = true := by
  have holds := point_le_and_modified_of_run? 1 "notes"
    [insert "a\tb", setModified false, forwardChar 5, untabify 3 0]
  refine ⟨_, rfl, (holds.1 _ rfl).1, ?_⟩
  apply (holds.1 _ rfl).2 [insert "a\tb", setModified false] [forwardChar 5, untabify 3 0] _ rfl
    (by simp [Clears]) rfl
  decide

end BufferCall

end EditorLisp
