import EditorLisp.Proofs.Document.Current
import EditorLisp.Proofs.Document.Layout
import EditorLisp.Proofs.Evaluation.Scope
import EditorLisp.Proofs.Interpreter

/-!
# What excursions put back

The body of an excursion may kill the buffer to come back to, close the window it was
selected in or fail midway.  Each form ends as its body does, and what it puts back is
stated about the session after it: the current buffer and the point in it, the match data,
the selected window or the layout of the windows.  A buffer that the body has killed cannot
be made current again and a closed window cannot be selected; the layout alone is brought
back without any such condition, by the names of the buffers.  For that the table of windows
must be in order, as it is in a new session and after every program.
-/

namespace EditorLisp

namespace Session

variable {s t : Session}

/-- The buffer current in a session is current in a later one, if it is alive there. -/
def Returned (s t : Session) : Prop :=
  t.workspace.isLive s.workspace.current.1 = true →
    t.workspace.current.1 = s.workspace.current.1

/-- Making the earlier current buffer current again returns to it. -/
theorem returned_setCurrent (wf : t.workspace.WellFormed) :
    s.Returned { t with workspace := t.workspace.setCurrent s.workspace.current.1 } := by
  intro live
  rw [Workspace.isLive_setCurrent wf] at live
  exact Workspace.current_setCurrent wf live

/-- The session of a step that runs with another buffer as the current one. -/
def visiting (s : Session) : Option Nat → Session
  | some id => { s with workspace := s.workspace.setCurrent id }
  | none => s

theorem kept_setCurrent (wf : s.workspace.WellFormed) (id : Nat) :
    s.Kept { s with workspace := s.workspace.setCurrent id } :=
  RestoredBy.kept (f := fun s => { s with workspace := s.workspace.setCurrent id }) s wf

theorem kept_visiting (wf : s.workspace.WellFormed) (target : Option Nat) :
    s.Kept (s.visiting target) := by
  cases target with
  | none => exact .refl wf
  | some id => exact kept_setCurrent wf id

end Session

namespace Eval

open Eval.Restores

variable {α : Type} {m : Eval α} {s : Session}

theorem currentBuffer_of_buffer? (wf : s.workspace.WellFormed) {b : Buffer}
    (there : s.workspace.buffer? s.workspace.current.1 = some b) : currentBuffer s = .ok b s := by
  obtain ⟨id, b', found, asked, answered⟩ := currentBuffer_of_wellFormed wf
  rw [currentId_of_wellFormed wf] at asked
  cases asked
  rw [there] at found
  cases found
  exact answered

/-- What names a buffer that can be made current names one that is alive. -/
theorem liveBuffer_ok (wf : s.workspace.WellFormed) {designator : Value} {id : Nat} {s' : Session}
    (found : liveBuffer designator s = .ok id s') : s' = s ∧ s.workspace.isLive id = true := by
  unfold liveBuffer at found
  split at found
  · rw [currentId_of_wellFormed wf] at found
    cases found
    exact ⟨rfl, Workspace.isLive_current wf⟩
  · obtain ⟨w, _, ⟨⟩, found⟩ := ok_of_bind found
    split at found
    next live =>
        cases found
        exact ⟨rfl, live⟩
    next => cases found
  next name =>
    obtain ⟨w, _, ⟨⟩, found⟩ := ok_of_bind found
    cases named : s.workspace.find? name with
    | none =>
        simp only [named] at found
        cases found
    | some holder =>
        simp only [named] at found
        cases found
        obtain ⟨b, there, -⟩ := (Workspace.bufferName?_eq_some_iff ..).mp (wf.find?_iff.mp named)
        exact ⟨rfl, Workspace.isLive_of_buffer? there⟩
  · cases found

/-- Around a step that runs with another current buffer there is only the way back. -/
theorem withBuffer_of_wellFormed (wf : s.workspace.WellFormed) (target : Option Nat) (m : Eval α) :
    withBuffer target m s =
      m.ensuring (fun t => { t with workspace := t.workspace.setCurrent s.workspace.current.1 })
        (s.visiting target) := by
  rw [withBuffer, bind_of_ok _ (currentId_of_wellFormed wf)]
  cases target <;> rfl

/-- A step that runs with another current buffer ends as it would on its own, back in the
buffer that was current before. -/
theorem endsAs_withBuffer [Restores m] (wf : s.workspace.WellFormed) (target : Option Nat) :
    (m (s.visiting target)).EndsAs (fun t => s.Kept t ∧ s.Returned t) (withBuffer target m s) := by
  have visited := s.kept_visiting wf target
  have body := (restores (m := m) _ visited.wellFormed).mono fun t => visited.trans
  rw [withBuffer_of_wellFormed wf]
  apply (Outcome.EndsAs.of_leaves body).ensuring
  intro t kept
  exact ⟨kept.trans (Session.kept_setCurrent kept.wellFormed _),
    Session.returned_setCurrent kept.wellFormed⟩

end Eval

namespace Forms

open Eval Eval.Restores

section Forms

variable (I : Interp) [I.Restores] (forms : List Value) (frame : Nat) {s : Session}

theorem endsAs_saveCurrentBuffer (wf : s.workspace.WellFormed) :
    (I.evalBody frame forms s).EndsAs s.Returned (saveCurrentBuffer I forms frame s) :=
  (endsAs_withBuffer wf none).mono fun _ ended => ended.2

omit [I.Restores] in
/-- Once the other buffer is known, `with-current-buffer` evaluates its body there. -/
theorem withCurrentBuffer_of_found {buffer designator : Value} {id : Nat} {s₁ s₂ : Session}
    (evaluated : I.eval buffer frame s = .ok designator s₁)
    (found : liveBuffer designator s₁ = .ok id s₂) :
    withCurrentBuffer I (buffer :: forms) frame s =
      withBuffer (some id) (I.evalBody frame forms) s₂ := by
  have enough : 1 ≤ (buffer :: forms).length := Nat.le_add_left ..
  rw [withCurrentBuffer, bind_of_ok _ (formArity_ok enough rfl ..), List.getD_cons_zero,
    bind_of_ok _ evaluated, bind_of_ok _ found]
  rfl

/-- The buffer to come back to is the one that is current once the form for the other buffer
has been evaluated. -/
theorem endsAs_withCurrentBuffer (wf : s.workspace.WellFormed) {buffer designator : Value}
    {id : Nat} {s₁ s₂ : Session} (evaluated : I.eval buffer frame s = .ok designator s₁)
    (found : liveBuffer designator s₁ = .ok id s₂) :
    (I.evalBody frame forms (s₂.visiting (some id))).EndsAs s₁.Returned
      (withCurrentBuffer I (buffer :: forms) frame s) := by
  have wf₁ := (kept_of_ok wf evaluated).wellFormed
  obtain ⟨rfl, -⟩ := liveBuffer_ok wf₁ found
  rw [withCurrentBuffer_of_found I forms frame evaluated found]
  exact (endsAs_withBuffer wf₁ (some id)).mono fun _ ended => ended.2

/-- The temporary buffer has the number that is given out next, and killing it leaves the
buffer current that the body was to come back to. -/
theorem endsAs_withTempBuffer (wf : s.workspace.WellFormed) :
    ∃ s₀ : Session, s₀.workspace.current.1 = s.workspace.nextId ∧
      (I.evalBody frame forms s₀).EndsAs
        (fun t => s.Returned t ∧ t.workspace.isLive s.workspace.nextId = false)
        (withTempBuffer I forms frame s) := by
  let base := "*temp-" ++ toString (s.tempCount + 1) ++ "*"
  let s₁ : Session :=
    { s with tempCount := s.tempCount + 1, workspace := (s.workspace.generate base).2 }
  have wf₁ : s₁.workspace.WellFormed := Workspace.wellFormed_generate wf base
  have made : s₁.workspace.isLive s.workspace.nextId = true :=
    (Workspace.isLive_insertNew ..).trans (by rw [decide_eq_true rfl, Bool.true_or])
  have same : s₁.workspace.current.1 = s.workspace.current.1 := Workspace.current_congr wf wf₁ rfl
  have old : s.workspace.current.1 < s.workspace.nextId :=
    wf.buffer_lt (Workspace.isLive_current wf)
  refine ⟨s₁.visiting (some s.workspace.nextId), Workspace.current_setCurrent wf₁ made, ?_⟩
  apply (endsAs_withBuffer wf₁ (some s.workspace.nextId)).ensuring
  intro t ⟨kept, returned⟩
  have wf' := kept.wellFormed
  refine ⟨?_, Workspace.isLive_kill?_getD wf' s.workspace.nextId⟩
  rw [Session.Returned, same] at returned
  have before : s.workspace.current.1 < t.workspace.nextId :=
    Nat.lt_of_lt_of_le (Nat.lt_succ_of_lt old) kept.evolves.nextId_le
  exact Workspace.current_kill?_getD wf' (Nat.ne_of_lt old) before returned

/-- `save-excursion` comes back to the point as well, which may lie beyond the end of the text
that the body has left. -/
theorem endsAs_saveExcursion (wf : s.workspace.WellFormed) {b : Buffer}
    (there : s.workspace.buffer? s.workspace.current.1 = some b) :
    (I.evalBody frame forms s).EndsAs
      (fun t => t.workspace.isLive s.workspace.current.1 = true →
        t.workspace.current.1 = s.workspace.current.1 ∧
          ∃ b', t.workspace.buffer? s.workspace.current.1 = some b' ∧
            b'.point = min b.point b'.size)
      (saveExcursion I forms frame s) := by
  have eq : saveExcursion I forms frame s =
      (I.evalBody frame forms).ensuring (fun t =>
        { t with
          workspace := (t.workspace.setCurrent s.workspace.current.1).modifyBuffer
            s.workspace.current.1 (·.goto b.point) }) s := by
    rw [saveExcursion, bind_of_ok _ (currentId_of_wellFormed wf),
      bind_of_ok _ (currentBuffer_of_buffer? wf there)]
  rw [eq]
  apply (Outcome.EndsAs.of_leaves (restores s wf)).ensuring
  intro t kept live
  have wf' := kept.wellFormed
  rw [Workspace.isLive_modifyBuffer, Workspace.isLive_setCurrent wf'] at live
  exact Workspace.current_setCurrent_goto wf' live b.point

omit [I.Restores] in
theorem endsAs_saveMatchData :
    (I.evalBody frame forms s).EndsAs (fun t => t.matchData = s.matchData)
      (saveMatchData I forms frame s) := by
  have eq : saveMatchData I forms frame s =
      (I.evalBody frame forms).ensuring (fun t => { t with matchData := s.matchData }) s :=
    bind_of_ok _ rfl
  rw [eq]
  exact (Outcome.EndsAs.refl _ fun _ => trivial).ensuring fun _ _ => rfl

theorem endsAs_saveSelectedWindow (wf : s.workspace.WellFormed) {win : Nat}
    (selected : s.workspace.windows.selected? = some win) :
    (I.evalBody frame forms s).EndsAs
      (fun t => t.workspace.windows.isLive win = true →
        t.workspace.windows.selected? = some win)
      (saveSelectedWindow I forms frame s) := by
  have eq : saveSelectedWindow I forms frame s =
      (I.evalBody frame forms).ensuring (fun t =>
        { t with workspace := t.workspace.selectWindow win }) s := by
    obtain ⟨win', selected', repaired⟩ := Workspace.ensureSelected_of_wellFormed wf
    rw [selected] at selected'
    cases selected'
    have asked : onWorkspace (·.ensureSelected) s = .ok win s := by
      show Outcome.ok s.workspace.ensureSelected.1
        { s with workspace := s.workspace.ensureSelected.2 } = _
      rw [repaired]
    rw [saveSelectedWindow, bind_of_ok _ asked]
  rw [eq]
  apply (Outcome.EndsAs.of_leaves (restores s wf)).ensuring
  intro t kept open_
  have stillOpen : t.workspace.windows.isLive win = true := by
    rwa [Workspace.isLive_selectWindow] at open_
  exact Workspace.selected?_selectWindow stillOpen

theorem endsAs_saveWindowExcursion (wf : s.workspace.WellFormed)
    (ordered : s.workspace.windows.Ordered) :
    (I.evalBody frame forms s).EndsAs
      (fun t =>
        (∀ win, s.workspace.windows.isLive win = true → t.workspace.windows.isLive win = true ∧
          ∃ name, s.workspace.ShowsName win name ∧ t.workspace.ShowsName win name) ∧
        t.workspace.windows.selected? = s.workspace.windows.selected?)
      (saveWindowExcursion I forms frame s) := by
  have eq : saveWindowExcursion I forms frame s =
      (I.evalBody frame forms).ensuring (fun t =>
        { t with workspace := t.workspace.restore s.workspace.capture.1 }) s := by
    have asked : onWorkspace (·.capture) s = .ok s.workspace.capture.1 s := by
      show Outcome.ok s.workspace.capture.1 { s with workspace := s.workspace.capture.2 } = _
      rw [Workspace.capture_of_wellFormed wf]
    rw [saveWindowExcursion, bind_of_ok _ asked]
  rw [eq]
  apply (Outcome.EndsAs.of_leaves (restores s wf)).ensuring
  intro t kept
  obtain ⟨shows, selected⟩ := Workspace.restore_capture wf ordered kept.wellFormed
  refine ⟨fun win open_ => ?_, selected⟩
  obtain ⟨name, shown⟩ := Workspace.exists_showsName wf open_
  exact ⟨(shows shown).isLive, name, shown, shows shown⟩

end Forms

/-- What is in force again after an excursion, whatever its body has done and however it
ended, each form started in a session whose workspace is in order. -/
structure Excursions (I : Interp) (forms : List Value) (frame : Nat) (s : Session) : Prop where
  /-- The buffer that was current is current, if it is still alive. -/
  saveCurrentBuffer :
    (I.evalBody frame forms s).EndsAs s.Returned (saveCurrentBuffer I forms frame s)
  /-- So it is where the body ran with another buffer as the current one. -/
  withCurrentBuffer {buffer designator : Value} {id : Nat} {s₁ s₂ : Session}
    (evaluated : I.eval buffer frame s = .ok designator s₁)
    (found : liveBuffer designator s₁ = .ok id s₂) :
    (I.evalBody frame forms (s₂.visiting (some id))).EndsAs s₁.Returned
      (withCurrentBuffer I (buffer :: forms) frame s)
  /-- So it is after a temporary buffer, and that is gone. -/
  withTempBuffer : ∃ s₀ : Session, s₀.workspace.current.1 = s.workspace.nextId ∧
    (I.evalBody frame forms s₀).EndsAs
      (fun t => s.Returned t ∧ t.workspace.isLive s.workspace.nextId = false)
      (withTempBuffer I forms frame s)
  /-- The buffer that was current is current, if it is still alive, and the point in it is
  where it was, or at the end of a text that has become shorter. -/
  saveExcursion {b : Buffer} (there : s.workspace.buffer? s.workspace.current.1 = some b) :
    (I.evalBody frame forms s).EndsAs
      (fun t => t.workspace.isLive s.workspace.current.1 = true →
        t.workspace.current.1 = s.workspace.current.1 ∧
          ∃ b', t.workspace.buffer? s.workspace.current.1 = some b' ∧
            b'.point = min b.point b'.size)
      (saveExcursion I forms frame s)
  saveMatchData : (I.evalBody frame forms s).EndsAs (fun t => t.matchData = s.matchData)
    (saveMatchData I forms frame s)
  /-- The window that was selected is selected, if it is still open. -/
  saveSelectedWindow {win : Nat} (selected : s.workspace.windows.selected? = some win) :
    (I.evalBody frame forms s).EndsAs
      (fun t => t.workspace.windows.isLive win = true →
        t.workspace.windows.selected? = some win)
      (saveSelectedWindow I forms frame s)
  /-- Every window that was open is open and shows a buffer of the name that its buffer had,
  and the window that was selected is selected. -/
  saveWindowExcursion (ordered : s.workspace.windows.Ordered) :
    (I.evalBody frame forms s).EndsAs
      (fun t =>
        (∀ win, s.workspace.windows.isLive win = true → t.workspace.windows.isLive win = true ∧
          ∃ name, s.workspace.ShowsName win name ∧ t.workspace.ShowsName win name) ∧
        t.workspace.windows.selected? = s.workspace.windows.selected?)
      (saveWindowExcursion I forms frame s)

/-- Each excursion ends as its body does and puts back what it is there to put back. -/
theorem excursions (level : Nat) (forms : List Value) (frame : Nat) {s : Session}
    (inOrder : s.workspace.WellFormed) : Excursions (.ofLevel level) forms frame s where
  saveCurrentBuffer := endsAs_saveCurrentBuffer _ forms frame inOrder
  withCurrentBuffer := endsAs_withCurrentBuffer _ forms frame inOrder
  withTempBuffer := endsAs_withTempBuffer _ forms frame inOrder
  saveExcursion := endsAs_saveExcursion _ forms frame inOrder
  saveMatchData := endsAs_saveMatchData _ forms frame
  saveSelectedWindow := endsAs_saveSelectedWindow _ forms frame inOrder
  saveWindowExcursion := endsAs_saveWindowExcursion _ forms frame inOrder

/-- Killing the only buffer closes the only window, and `(save-window-excursion (kill-buffer))`
opens that window again. -/
theorem excursions_kill :
    let s : Session := { store := { pairs := #[⟨.symbol "kill-buffer", .nil⟩] } }
    ∃ t, saveWindowExcursion (.ofLevel 2) [.cons 0] 0 s = .ok .t t ∧
      t.workspace.windows.isLive 1 = true ∧ t.workspace.windows.selected? = some 1 := by
  intro s
  have ended := (excursions 2 [.cons 0] 0 (s := s)
    Workspace.wellFormed_initial).saveWindowExcursion Workspace.ordered_initial
  have body : ∃ s', (Interp.ofLevel 2).evalBody 0 [.cons 0] s = .ok .t s' := ⟨_, rfl⟩
  obtain ⟨s', killed⟩ := body
  rw [killed] at ended
  generalize saveWindowExcursion (.ofLevel 2) [.cons 0] 0 s = o at ended
  cases ended with
  | ok _ _ back => exact ⟨_, rfl, (back.1 1 rfl).1, back.2⟩

end Forms

end EditorLisp
