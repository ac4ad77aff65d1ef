import EditorLisp.Proofs.Forms.Assignment
import EditorLisp.Proofs.Forms.Excursion

/-!
# What buffer scopes do to windows

A buffer becomes current by being shown in the selected window.  The way into a scope with
another current buffer therefore writes one window, and so does the way out, where the
window then selected is made to show the buffer of before.  If the body has selected
another window in between, the first one keeps showing the buffer of the scope and the
second one loses the buffer that it showed.
-/

namespace EditorLisp

variable {s t : Session}

namespace Session

/-- Every window shows the buffer that it showed. -/
def SameShown (s t : Session) : Prop :=
  ∀ win, t.workspace.windowBuffer? win = s.workspace.windowBuffer? win

/-- No window shows another buffer and no buffer is gone: what is left to change are texts,
points and the selection of a window. -/
structure Arranged (s t : Session) : Prop where
  sameShown : s.SameShown t
  isLive : ∀ ⦃id⦄, s.workspace.isLive id = true → t.workspace.isLive id = true

theorem isLive_visiting (wf : s.workspace.WellFormed) (target : Option Nat) (id : Nat) :
    (s.visiting target).workspace.isLive id = s.workspace.isLive id := by
  cases target with
  | none => rfl
  | some other => exact Workspace.isLive_setCurrent wf other id

end Session

namespace Eval

open Eval.Restores

variable {α : Type} {m : Eval α} [Restores m] {chosen : Nat}

/-- After a step that only selects windows, the window selected last shows the buffer that
was current before, and the others show what they showed during the step. -/
theorem endsAs_withBuffer_shown (wf : s.workspace.WellFormed) (target : Option Nat)
    (body : (m (s.visiting target)).Leaves fun t =>
      (s.visiting target).Arranged t ∧ t.workspace.windows.selected? = some chosen) :
    (m (s.visiting target)).EndsAs
      (fun t => ∀ win, t.workspace.windowBuffer? win =
        if chosen = win then some s.workspace.current.1
        else (s.visiting target).workspace.windowBuffer? win)
      (withBuffer target m s) := by
  have visited := s.kept_visiting wf target
  rw [withBuffer_of_wellFormed wf]
  apply (Outcome.EndsAs.of_leaves ((restores _ visited.wellFormed).and body)).ensuring
  intro t ⟨kept, arranged, selected⟩ win
  have live : t.workspace.isLive s.workspace.current.1 = true := by
    apply arranged.isLive
    rw [s.isLive_visiting wf]
    exact Workspace.isLive_current wf
  rw [Workspace.windowBuffer?_setCurrent kept.wellFormed selected live, arranged.sameShown]

end Eval

namespace Forms

open Eval Eval.Restores

section Forms

variable (I : Interp) [I.Restores] (forms : List Value) (frame : Nat) {selected chosen : Nat}

/-- The way out of `save-current-buffer` shows the buffer of before in the window that the body
has selected last. -/
theorem endsAs_saveCurrentBuffer_shown (wf : s.workspace.WellFormed)
    (body : (I.evalBody frame forms s).Leaves fun t =>
      s.Arranged t ∧ t.workspace.windows.selected? = some chosen) :
    (I.evalBody frame forms s).EndsAs
      (fun t => s.SameShown t ↔
        s.workspace.windowBuffer? chosen = some s.workspace.current.1)
      (saveCurrentBuffer I forms frame s) := by
  apply (endsAs_withBuffer_shown wf none body).mono
  intro t shown
  constructor
  · intro same
    rw [← same chosen, shown, if_pos rfl]
  · intro there win
    rw [shown]
    split
    next here => rw [← here, there]
    next => rfl

theorem endsAs_withCurrentBuffer_shown (wf : s.workspace.WellFormed) {buffer designator : Value}
    {id : Nat} {s₁ s₂ : Session} (evaluated : I.eval buffer frame s = .ok designator s₁)
    (found : liveBuffer designator s₁ = .ok id s₂)
    (before : s₁.workspace.windows.selected? = some selected)
    (body : (I.evalBody frame forms (s₂.visiting (some id))).Leaves fun t =>
      (s₂.visiting (some id)).Arranged t ∧ t.workspace.windows.selected? = some chosen) :
    (I.evalBody frame forms (s₂.visiting (some id))).EndsAs
      (fun t => s₁.SameShown t ↔
        s₁.workspace.windowBuffer? chosen = some s₁.workspace.current.1 ∧
          (chosen = selected ∨ id = s₁.workspace.current.1))
      (withCurrentBuffer I (buffer :: forms) frame s) := by
  have wf₁ := (kept_of_ok wf evaluated).wellFormed
  obtain ⟨rfl, live⟩ := liveBuffer_ok wf₁ found
  rw [withCurrentBuffer_of_found I forms frame evaluated found]
  apply (endsAs_withBuffer_shown wf₁ (some id) body).mono
  intro t shown
  have entered (win : Nat) : (s₂.visiting (some id)).workspace.windowBuffer? win =
      if selected = win then some id else s₂.workspace.windowBuffer? win :=
    Workspace.windowBuffer?_setCurrent wf₁ before live win
  obtain ⟨win, isSelected, current⟩ := Workspace.exists_shown_current wf₁
  rw [before] at isSelected
  cases isSelected
  constructor
  · intro same
    have last := same chosen
    rw [shown, if_pos rfl] at last
    refine ⟨last.symm, ?_⟩
    by_cases stayed : chosen = selected
    · exact .inl stayed
    · have first := same selected
      rw [shown, if_neg stayed, entered, if_pos rfl, current] at first
      exact .inr (Option.some.inj first)
  · intro ⟨there, alike⟩ win
    rw [shown]
    split
    next here => rw [← here, there]
    next elsewhere =>
        rw [entered]
        split
        next here =>
            subst here
            rcases alike with stayed | same
            · exact absurd stayed elsewhere
            · rw [same, current]
        next => rfl

end Forms

/-- When a scope with another current buffer leaves every window as it was, its body being one
that selects windows and edits texts or points but changes no window's buffer and kills
nothing.  `chosen` is the window that the body leaves selected. -/
structure BufferScopes (I : Interp) (forms : List Value) (frame : Nat) (s : Session) : Prop where
  /-- The window selected last has to show the buffer that was current before. -/
  saveCurrentBuffer {chosen : Nat}
    (body : (I.evalBody frame forms s).Leaves fun t =>
      s.Arranged t ∧ t.workspace.windows.selected? = some chosen) :
    (I.evalBody frame forms s).EndsAs
      (fun t => s.SameShown t ↔
        s.workspace.windowBuffer? chosen = some s.workspace.current.1)
      (saveCurrentBuffer I forms frame s)
  /-- Besides, it has to be the window selected first, unless that showed the buffer of the
  scope already. -/
  withCurrentBuffer {buffer designator : Value} {id selected chosen : Nat} {s₁ s₂ : Session}
    (evaluated : I.eval buffer frame s = .ok designator s₁)
    (found : liveBuffer designator s₁ = .ok id s₂)
    (before : s₁.workspace.windows.selected? = some selected)
    (body : (I.evalBody frame forms (s₂.visiting (some id))).Leaves fun t =>
      (s₂.visiting (some id)).Arranged t ∧ t.workspace.windows.selected? = some chosen) :
    (I.evalBody frame forms (s₂.visiting (some id))).EndsAs
      (fun t => s₁.SameShown t ↔
        s₁.workspace.windowBuffer? chosen = some s₁.workspace.current.1 ∧
          (chosen = selected ∨ id = s₁.workspace.current.1))
      (withCurrentBuffer I (buffer :: forms) frame s)

/-- A scope leaves the windows as they were if its body leaves the window selected that was
selected before; otherwise the other window must have shown the same buffer. -/
theorem bufferScopes (level : Nat) (forms : List Value) (frame : Nat) {s : Session}
    (inOrder : s.workspace.WellFormed) : BufferScopes (.ofLevel level) forms frame s where
  saveCurrentBuffer := endsAs_saveCurrentBuffer_shown _ forms frame inOrder
  withCurrentBuffer := endsAs_withCurrentBuffer_shown _ forms frame inOrder

set_option maxRecDepth 2000 in
/-- With two windows on one buffer, `(save-current-buffer (select-window #<window 2>))` leaves
both on it. -/
theorem bufferScopes_split :
    let s : Session :=
      { workspace := { Workspace.initial with windows := (Workspace.initial.windows.create 1).2 }
        store := { pairs := #[⟨.symbol "select-window", .cons 1⟩, ⟨.window 2, .nil⟩] } }
    ∃ t, saveCurrentBuffer (.ofLevel 2) [.cons 0] 0 s = .ok (.window 2) t ∧
      s.SameShown t := by
  intro s
  have split : Workspace.initial.splitWindow? 1 = some (2, s.workspace) := rfl
  have inOrder := (Workspace.splitWindow?_cases Workspace.wellFormed_initial split).1
  let windows := { s.workspace.windows with selection := some 2 }
  have selects : (Interp.ofLevel 2).evalBody 0 [.cons 0] s =
      .ok (.window 2) { s with workspace := { s.workspace with windows } } := rfl
  have body : ((Interp.ofLevel 2).evalBody 0 [.cons 0] s).Leaves fun t =>
      s.Arranged t ∧ t.workspace.windows.selected? = some 2 := by
    rw [selects]
    exact ⟨⟨fun _ => rfl, fun _ live => live⟩, rfl⟩
  have ended := (bufferScopes 2 [.cons 0] 0 inOrder).saveCurrentBuffer body
  rw [selects] at ended
  generalize saveCurrentBuffer (.ofLevel 2) [.cons 0] 0 s = o at ended
  cases ended with
  | ok _ _ unchanged => exact ⟨_, rfl, unchanged.mpr rfl⟩

/-- The windows that an outcome leaves, each with the name of the buffer that it shows. -/
def windowsAfter? {α : Type} (o : Outcome α) : Option (List (Nat × String)) :=
  o.after?.map fun s => s.workspace.capture.1.windows

/-- A body that only selects another window loses the buffer that this window showed, and
leaves the buffer of the scope in the window that was selected before. -/
theorem bufferScopes_other :
    let w := ((Workspace.initial.generate "two").2.generate "b").2
    let s : Session :=
      { workspace := { w with windows := (w.windows.create 2).2 }
        store := { pairs := #[⟨.symbol "select-window", .cons 1⟩, ⟨.window 2, .nil⟩] } }
    windowsAfter? ((Interp.ofLevel 2).evalBody 0 [.cons 0] s) =
        some [(1, "*scratch*"), (2, "two")] ∧
      windowsAfter? (saveCurrentBuffer (.ofLevel 2) [.cons 0] 0 s) =
        some [(1, "*scratch*"), (2, "*scratch*")] ∧
      windowsAfter? (withCurrentBuffer (.ofLevel 2) [.buffer 3, .cons 0] 0 s) =
        some [(1, "b"), (2, "*scratch*")] := by
  decide +kernel

end Forms

end EditorLisp
