import EditorLisp.Proofs.Document.Arrangement
import Mathlib.Data.List.Induction

/-!
# Histories of a workspace

A history is any list of calls on buffers and windows, made one after the other on the
workspace of a new session; layouts captured on the way may be brought back at any later
time, however the buffers and windows have changed since.  What one call keeps every
history keeps, and what a number was given out for it is never given out for again.
-/

namespace EditorLisp

namespace Workspace

/-! ## Windows that are left alone -/

/-- What a change does to the windows: those that it does not touch show what they showed as
long as they are open, and new ones have numbers that were never in use. -/
structure Spares (touched : Nat → Prop) (w w' : Workspace) : Prop where
  kept : ∀ {win before after}, w.windowBuffer? win = some before →
    w'.windowBuffer? win = some after → touched win ∨ after = before
  opened : ∀ {win after}, w'.windowBuffer? win = some after →
    touched win ∨ w.windows.isLive win = true ∨ w.windows.nextId ≤ win

namespace Spares

variable {touched : Nat → Prop} {w w' w'' : Workspace}

/-- Windows may be closed. -/
theorem closing (fewer : ∀ {win id}, w'.windowBuffer? win = some id →
    w.windowBuffer? win = some id) : Spares touched w w' where
  kept before after := by
    rw [fewer after] at before
    exact Or.inr (Option.some.inj before)
  opened after := Or.inr (Or.inl (Windows.isLive_of_buffer? (fewer after)))

theorem of_windows (same : w'.windows = w.windows) : Spares touched w w' :=
  closing fun there => by rwa [windowBuffer?, same] at there

theorem trans (c : w.Consistent) (first : Spares touched w w') (second : Spares touched w' w'')
    (further : w.windows.nextId ≤ w'.windows.nextId) : Spares touched w w'' where
  kept {win before after} old new := by
    rcases second.opened new with here | there | fresh
    · exact Or.inl here
    · obtain ⟨between, shown⟩ := (Windows.isLive_iff ..).mp there
      rcases first.kept old shown with here | same
      · exact Or.inl here
      · exact same ▸ second.kept shown new
    · have := c.window_lt (Windows.isLive_of_buffer? old)
      omega
  opened new := by
    rcases second.opened new with here | there | fresh
    · exact Or.inl here
    · obtain ⟨between, shown⟩ := (Windows.isLive_iff ..).mp there
      exact first.opened shown
    · exact Or.inr (Or.inr (Nat.le_trans further fresh))

/-- One window shows another buffer. -/
theorem showing {win : Nat} (open_ : w.windows.isLive win = true) (here : touched win) (id : Nat) :
    Spares touched w
      { w with windows := { w.windows with shown := w.windows.shown.insert win id } } where
  kept {other before after} old new := by
    have new := (Table.get?_insert ..).symm.trans new
    split at new
    next same => exact Or.inl (same ▸ here)
    next => exact Or.inr (Option.some.inj (new.symm.trans old))
  opened {other after} new := by
    have new := (Table.get?_insert ..).symm.trans new
    split at new
    next same => exact Or.inr (Or.inl (same ▸ open_))
    next => exact Or.inr (Or.inl (Windows.isLive_of_buffer? new))

/-- One window more is opened. -/
theorem creating (c : w.Consistent) (buffer : Nat) :
    Spares touched w { w with windows := (w.windows.create buffer).2 } where
  kept {win before after} old new := by
    have new := (Windows.buffer?_create ..).symm.trans new
    split at new
    next fresh =>
        have := c.window_lt (Windows.isLive_of_buffer? old)
        omega
    next => exact Or.inr (Option.some.inj (new.symm.trans old))
  opened {win after} new := by
    have new := (Windows.buffer?_create ..).symm.trans new
    split at new
    next fresh => exact Or.inr (Or.inr (Nat.le_of_eq fresh))
    next => exact Or.inr (Or.inl (Windows.isLive_of_buffer? new))

theorem repairing : Spares touched w w.ensureWindow.2 where
  kept old new := by
    rw [windowBuffer?_ensureWindow old] at new
    exact Or.inr (Option.some.inj new).symm
  opened {win after} new := by
    rcases ensureWindow_cases w with ⟨_, -, eq⟩ | ⟨_, -, eq⟩ | ⟨-, eq⟩ <;> rw [eq] at new
    · exact Or.inr (Or.inl (Windows.isLive_of_buffer? new))
    · exact Or.inr (Or.inl (Windows.isLive_of_buffer? new))
    · have new := (Windows.buffer?_create ..).symm.trans new
      split at new
      next fresh => exact Or.inr (Or.inr (Nat.le_of_eq fresh))
      next => exact Or.inr (Or.inl (Windows.isLive_of_buffer? new))

theorem setCurrent (wf : w.WellFormed) (id : Nat)
    (selected : ∀ win, w.windows.selected? = some win → touched win) :
    Spares touched w (w.setCurrent id) := by
  unfold Workspace.setCurrent
  cases h : w.setCurrent? id with
  | none => exact of_windows rfl
  | some w' =>
      obtain ⟨-, win, there, rfl⟩ := (setCurrent?_eq_some_iff wf id).mp h
      exact showing (Windows.isLive_of_selected? there) (selected win there) id

theorem switchTo (wf : w.WellFormed) (name : String)
    (selected : ∀ win, w.windows.selected? = some win → touched win) :
    Spares touched w (w.switchTo name).2 := by
  refine trans wf.toConsistent (of_windows (windows_getOrCreate w name))
    (setCurrent (wellFormed_getOrCreate wf) _ ?_) rearranges_getOrCreate.windowId_le
  rw [windows_getOrCreate]
  exact selected

theorem bury (wf : w.WellFormed) (id : Nat)
    (selected : ∀ win, w.windows.selected? = some win → touched win) :
    Spares touched w (w.bury id) := by
  rcases bury_of_wellFormed wf id with eq | eq <;> rw [eq]
  · exact of_windows rfl
  · exact switchTo wf scratchName selected

theorem selecting (win : Nat) : Spares touched w (w.selectWindow win) := by
  unfold selectWindow
  cases h : w.selectWindow? win with
  | none => exact of_windows rfl
  | some w' =>
      obtain ⟨-, rfl⟩ := (selectWindow?_eq_some_iff w w' win).mp h
      exact closing fun there => there

theorem kill? (wf : w.WellFormed) {id : Nat} (h : w.kill? id = some w')
    (shown : ∀ win, w.windowBuffer? win = some id → touched win) : Spares touched w w' := by
  obtain ⟨b, there, rfl⟩ := kill?_eq_some_iff.mp h
  have c := consistent_vacated wf there
  rw [ensureSelected_eq c (showsLive_vacated wf there)]
  refine trans wf.toConsistent ?_ repairing (rearranges_vacated w b id).windowId_le
  constructor
  · intro win before after old new
    obtain ⟨between, found, same⟩ := windowBuffer?_vacated new
    rw [old] at found
    cases found
    rcases same with here | same
    · exact Or.inl (shown win (here ▸ old))
    · exact Or.inr same
  · intro win after new
    obtain ⟨before, old, -⟩ := windowBuffer?_vacated new
    exact Or.inr (Or.inl (Windows.isLive_of_buffer? old))

theorem deleteWindow? (wf : w.WellFormed) {win : Nat} (h : w.deleteWindow? win = some w') :
    Spares touched w w' := by
  have fewer (other id : Nat) (there : (w.windows.delete win).buffer? other = some id) :
      w.windowBuffer? other = some id := by
    rw [Windows.buffer?_delete] at there
    split at there
    · cases there
    · exact there
  obtain ⟨c, shown⟩ := consistent_closing wf (w.windows.delete win) rfl (fewer _ _)
  have closed : Spares touched w { w with windows := w.windows.delete win } :=
    closing fun there => fewer _ _ there
  rw [deleteWindow?_eq_some h, ensureSelected_eq c shown]
  exact trans wf.toConsistent closed repairing (Nat.le_refl _)

theorem deleteOtherWindows (keep : Nat) : Spares touched w (w.deleteOtherWindows keep) := by
  unfold Workspace.deleteOtherWindows
  split
  · refine closing fun there => ?_
    have there := (Windows.buffer?_foldl_delete ..).symm.trans there
    split at there
    · cases there
    · exact there
  · exact of_windows rfl

theorem restoreWindows (windows : List (Nat × String))
    (remembered : ∀ e ∈ windows, touched e.1) : Spares touched w (w.restoreWindows windows) where
  kept {win before after} old new := by
    by_cases listed : win ∈ windows.map Prod.fst
    · obtain ⟨e, member, rfl⟩ := List.mem_map.mp listed
      exact Or.inl (remembered e member)
    · rw [windowBuffer?_restoreWindows w windows listed, old] at new
      exact Or.inr (Option.some.inj new).symm
  opened {win after} new := by
    by_cases listed : win ∈ windows.map Prod.fst
    · obtain ⟨e, member, rfl⟩ := List.mem_map.mp listed
      exact Or.inl (remembered e member)
    · rw [windowBuffer?_restoreWindows w windows listed] at new
      exact Or.inr (Or.inl (Windows.isLive_of_buffer? new))

theorem restore (wf : w.WellFormed) (layout : Layout)
    (remembered : ∀ e ∈ layout.windows, touched e.1) : Spares touched w (w.restore layout) := by
  rw [restore_of_wellFormed wf]
  exact trans wf.toConsistent (restoreWindows layout.windows remembered)
    (selecting layout.selected) (restoreWindows_cases wf layout.windows).2.windowId_le

end Spares

end Workspace

/-! ## Calls -/

/-- A call of an operation on buffers or windows.  A layout is named by its place among
those captured before.  An edit may be any that leaves the point in the text. -/
inductive WorkspaceCall where
  | getOrCreate (name : String)
  | generate (base : String)
  | rename (id : Nat) (name : String)
  | edit (id : Nat) (f : Buffer → Buffer) (edited : ∀ b : Buffer, b.Edited (f b))
  | setCurrent (id : Nat)
  | switchTo (name : String)
  | kill (id : Nat)
  | bury (id : Nat)
  | selectWindow (win : Nat)
  | setWindowBuffer (win buffer : Nat)
  | splitWindow (win : Nat)
  | deleteWindow (win : Nat)
  | deleteOtherWindows (keep : Nat)
  | capture
  | restore (place : Nat)

/-- A workspace and the layouts captured from it so far, the first one first. -/
structure Desk where
  workspace : Workspace := .initial
  captured : List Layout := []

namespace Desk

/-- The workspace after a call; a call that is refused changes nothing. -/
def perform (d : Desk) : WorkspaceCall → Workspace
  | .getOrCreate name => (d.workspace.getOrCreate name).2
  | .generate base => (d.workspace.generate base).2
  | .rename id name => (d.workspace.rename? id name).getD d.workspace
  | .edit id f _ => d.workspace.modifyBuffer id f
  | .setCurrent id => d.workspace.setCurrent id
  | .switchTo name => (d.workspace.switchTo name).2
  | .kill id => (d.workspace.kill? id).getD d.workspace
  | .bury id => d.workspace.bury id
  | .selectWindow win => d.workspace.selectWindow win
  | .setWindowBuffer win buffer => (d.workspace.setWindowBuffer? win buffer).getD d.workspace
  | .splitWindow win => ((d.workspace.splitWindow? win).map Prod.snd).getD d.workspace
  | .deleteWindow win => (d.workspace.deleteWindow? win).getD d.workspace
  | .deleteOtherWindows keep => d.workspace.deleteOtherWindows keep
  | .capture => d.workspace.capture.2
  | .restore place => (d.captured[place]?.map d.workspace.restore).getD d.workspace

/-- The layouts captured after a call. -/
def layouts (d : Desk) : WorkspaceCall → List Layout
  | .capture => d.captured ++ [d.workspace.capture.1]
  | _ => d.captured

/-- One call. -/
def step (d : Desk) (call : WorkspaceCall) : Desk := ⟨d.perform call, d.layouts call⟩

/-- A list of calls on a new workspace, one after the other. -/
def run (calls : List WorkspaceCall) : Desk := calls.foldl step {}

/-- The windows that a call is meant to show something else in, or to open again under the
number that they had. -/
def Touches (d : Desk) : WorkspaceCall → Nat → Prop
  | .setCurrent _, win | .switchTo _, win | .bury _, win => d.workspace.windows.selected? = some win
  | .setWindowBuffer target _, win => win = target
  | .kill id, win => d.workspace.windowBuffer? win = some id
  | .restore place, win => ∃ layout ∈ d.captured[place]?, ∃ name, (win, name) ∈ layout.windows
  | _, _ => False

/-! ## One call -/

section Step

variable {d : Desk}

/-- What a call keeps of what an operation that may be refused keeps. -/
theorem getD_of_cases {P : Workspace → Prop} {w : Workspace} {answer : Option Workspace}
    (refused : P w) (done : ∀ w', answer = some w' → P w') : P (answer.getD w) := by
  cases h : answer with
  | none => exact refused
  | some w' => exact done w' h

theorem perform_capture (wf : d.workspace.WellFormed) : d.perform .capture = d.workspace :=
  Workspace.capture_of_wellFormed wf

theorem wellFormed_perform (wf : d.workspace.WellFormed) (call : WorkspaceCall) :
    (d.perform call).WellFormed := by
  cases call with
  | getOrCreate name => exact Workspace.wellFormed_getOrCreate wf
  | generate base => exact Workspace.wellFormed_generate wf base
  | rename id name => exact getD_of_cases wf fun _ => Workspace.wellFormed_rename? wf
  | edit id f edited => exact Workspace.wellFormed_modifyBuffer wf fun b _ => edited b
  | setCurrent id => exact Workspace.wellFormed_setCurrent wf id
  | switchTo name => exact Workspace.wellFormed_switchTo wf name
  | kill id => exact getD_of_cases wf fun _ h => (Workspace.kill?_cases wf h).1
  | bury id => exact Workspace.wellFormed_bury wf id
  | selectWindow win => exact Workspace.wellFormed_selectWindow wf win
  | setWindowBuffer win buffer =>
      exact getD_of_cases wf fun _ h => (Workspace.setWindowBuffer?_cases wf h).1
  | splitWindow win =>
      refine getD_of_cases wf fun w' h => ?_
      obtain ⟨⟨new, _⟩, split, rfl⟩ := Option.map_eq_some_iff.mp h
      exact (Workspace.splitWindow?_cases wf split).1
  | deleteWindow win => exact getD_of_cases wf fun _ h => (Workspace.deleteWindow?_cases wf h).1
  | deleteOtherWindows keep => exact (Workspace.deleteOtherWindows_cases wf keep).1
  | capture => rwa [perform_capture wf]
  | restore place =>
      refine getD_of_cases wf fun w' h => ?_
      obtain ⟨layout, -, rfl⟩ := Option.map_eq_some_iff.mp h
      exact (Workspace.restore_cases wf layout).1

theorem rearranges_perform (wf : d.workspace.WellFormed) (call : WorkspaceCall)
    (noEdit : ∀ id f edited, call ≠ .edit id f edited) :
    d.workspace.Rearranges (d.perform call) := by
  have refused := Workspace.Rearranges.refl d.workspace
  cases call with
  | getOrCreate name => exact Workspace.rearranges_getOrCreate
  | generate base => exact Workspace.rearranges_generate d.workspace base
  | rename id name => exact getD_of_cases refused fun _ => Workspace.rearranges_rename?
  | edit id f edited => exact absurd rfl (noEdit id f edited)
  | setCurrent id => exact Workspace.rearranges_setCurrent wf id
  | switchTo name => exact Workspace.rearranges_switchTo wf name
  | kill id => exact getD_of_cases refused fun _ h => (Workspace.kill?_cases wf h).2
  | bury id => exact Workspace.rearranges_bury wf id
  | selectWindow win => exact Workspace.rearranges_selectWindow d.workspace win
  | setWindowBuffer win buffer =>
      exact getD_of_cases refused fun _ h => (Workspace.setWindowBuffer?_cases wf h).2
  | splitWindow win =>
      refine getD_of_cases refused fun w' h => ?_
      obtain ⟨⟨new, _⟩, split, rfl⟩ := Option.map_eq_some_iff.mp h
      exact (Workspace.splitWindow?_cases wf split).2
  | deleteWindow win =>
      exact getD_of_cases refused fun _ h => (Workspace.deleteWindow?_cases wf h).2
  | deleteOtherWindows keep => exact (Workspace.deleteOtherWindows_cases wf keep).2
  | capture => rw [perform_capture wf]
  | restore place =>
      refine getD_of_cases refused fun w' h => ?_
      obtain ⟨layout, -, rfl⟩ := Option.map_eq_some_iff.mp h
      exact (Workspace.restore_cases wf layout).2

theorem follows_perform (wf : d.workspace.WellFormed) (call : WorkspaceCall) :
    d.workspace.Follows (d.perform call) := by
  by_cases noEdit : ∀ id f edited, call ≠ .edit id f edited
  · exact (rearranges_perform wf call noEdit).toFollows
  · simp only [not_forall, not_not] at noEdit
    obtain ⟨id, f, edited, rfl⟩ := noEdit
    exact Workspace.follows_modifyBuffer

theorem spares_perform (wf : d.workspace.WellFormed) (call : WorkspaceCall) :
    Workspace.Spares (d.Touches call) d.workspace (d.perform call) := by
  have refused : Workspace.Spares (d.Touches call) d.workspace d.workspace := .of_windows rfl
  cases call with
  | getOrCreate name => exact .of_windows (Workspace.windows_getOrCreate d.workspace name)
  | generate base => exact .of_windows rfl
  | rename id name =>
      exact getD_of_cases refused fun _ h => .of_windows (Workspace.windows_rename? h)
  | edit id f edited => exact .of_windows rfl
  | setCurrent id => exact .setCurrent wf id fun _ selected => selected
  | switchTo name => exact .switchTo wf name fun _ selected => selected
  | kill id => exact getD_of_cases refused fun _ h => .kill? wf h fun _ shown => shown
  | bury id => exact .bury wf id fun _ selected => selected
  | selectWindow win => exact .selecting win
  | setWindowBuffer win buffer =>
      refine getD_of_cases refused fun w' h => ?_
      obtain ⟨-, open_, rfl⟩ := (Workspace.setWindowBuffer?_eq_some_iff ..).mp h
      have here : d.Touches (.setWindowBuffer win buffer) win := rfl
      exact .showing open_ here buffer
  | splitWindow win =>
      refine getD_of_cases refused fun w' h => ?_
      obtain ⟨⟨new, _⟩, split, rfl⟩ := Option.map_eq_some_iff.mp h
      obtain ⟨buffer, -, -, rfl⟩ := (Workspace.splitWindow?_eq_some_iff ..).mp split
      exact .creating wf.toConsistent buffer
  | deleteWindow win => exact getD_of_cases refused fun _ h => .deleteWindow? wf h
  | deleteOtherWindows keep => exact .deleteOtherWindows keep
  | capture => rwa [perform_capture wf]
  | restore place =>
      refine getD_of_cases refused fun w' h => ?_
      obtain ⟨layout, found, rfl⟩ := Option.map_eq_some_iff.mp h
      exact .restore wf layout fun e member => ⟨layout, found, e.2, member⟩

end Step

/-! ## All calls -/

section Run

theorem run_append (calls : List WorkspaceCall) (call : WorkspaceCall) :
    run (calls ++ [call]) = (run calls).step call :=
  List.foldl_concat ..

theorem wellFormed_run (calls : List WorkspaceCall) : (run calls).workspace.WellFormed := by
  induction calls using List.reverseRecOn with
  | nil => exact Workspace.wellFormed_initial
  | append_singleton calls call ih =>
      rw [run_append]
      exact wellFormed_perform ih call

theorem follows_run (calls later : List WorkspaceCall) :
    (run calls).workspace.Follows (run (calls ++ later)).workspace := by
  induction later using List.reverseRecOn with
  | nil => rw [List.append_nil]
  | append_singleton later call ih =>
      rw [← List.append_assoc, run_append]
      exact ih.trans (follows_perform (wellFormed_run _) call)

/-- What holds after every history: which buffer is which, which window shows which, and
what the next call cannot do. -/
structure Sound (calls : List WorkspaceCall) : Prop where
  wellFormed : (run calls).workspace.WellFormed
  /-- The selected window is open and shows a live buffer, which is the current one. -/
  current : ∃ win id b, (run calls).workspace.windows.selected? = some win ∧
    (run calls).workspace.windowBuffer? win = some id ∧
    (run calls).workspace.buffer? id = some b ∧
    (run calls).workspace.current = (id, (run calls).workspace)
  /-- Every window shows a live buffer. -/
  shown_live : ∀ {win id}, (run calls).workspace.windowBuffer? win = some id →
    (run calls).workspace.isLive id = true
  /-- A name finds the buffer of that name and nothing else. -/
  find?_iff : ∀ {name id}, (run calls).workspace.find? name = some id ↔
    ∃ b, (run calls).workspace.buffer? id = some b ∧ b.name = name
  /-- A buffer that was there once and is gone stays gone: its number is not given out
  again. -/
  never_again : ∀ {earlier id call}, earlier <+: calls →
    (run earlier).workspace.isLive id = true →
    (run (calls ++ [call])).workspace.isLive id = true → (run calls).workspace.isLive id = true
  /-- The next call leaves windows alone that it is not about, and opens new ones under
  numbers that no window ever had. -/
  spares : ∀ call, Workspace.Spares ((run calls).Touches call) (run calls).workspace
    (run (calls ++ [call])).workspace
  /-- A split opens a window that was not there, on the buffer of the window split, and
  leaves all others as they are. -/
  split : ∀ {win new w}, (run calls).workspace.splitWindow? win = some (new, w) →
    (run calls).workspace.windows.isLive new = false ∧
      w.windowBuffer? new = (run calls).workspace.windowBuffer? win ∧
      ∀ other, other ≠ new → w.windowBuffer? other = (run calls).workspace.windowBuffer? other
  /-- Only an edit changes a text or a point. -/
  same : ∀ {call id b b'}, (∀ id f edited, call ≠ .edit id f edited) →
    (run calls).workspace.buffer? id = some b →
    (run (calls ++ [call])).workspace.buffer? id = some b' → b' = { b with name := b'.name }
  /-- When a buffer is killed it is gone, and every other one stays, with its text and its
  point. -/
  killed : ∀ {id w}, (run calls).workspace.kill? id = some w → w.isLive id = false ∧
    ∀ other, other ≠ id → ∀ b,
      (run calls).workspace.buffer? other = some b → w.buffer? other = some b

theorem sound_run (calls : List WorkspaceCall) : Sound calls where
  wellFormed := wellFormed_run calls
  current := Workspace.current_of_wellFormed (wellFormed_run calls)
  shown_live there := (wellFormed_run calls).shown_live there
  find?_iff := (wellFormed_run calls).find?_iff.trans (Workspace.bufferName?_eq_some_iff ..)
  never_again {earlier id call} prior live after := by
    obtain ⟨later, rfl⟩ := prior
    have used := (wellFormed_run earlier).buffer_lt live
    rw [run_append] at after
    rcases (follows_perform (wellFormed_run _) call).live_before after with there | fresh
    · exact there
    · have := (follows_run earlier later).nextId_le
      omega
  spares call := by
    rw [run_append]
    exact spares_perform (wellFormed_run calls) call
  split {win new w} opened := by
    have wf := wellFormed_run calls
    obtain ⟨buffer, there, rfl, rfl⟩ := (Workspace.splitWindow?_eq_some_iff ..).mp opened
    have shownBy (other : Nat) := Windows.buffer?_create (run calls).workspace.windows buffer other
    refine ⟨?_, ?_, ?_⟩
    · rw [Bool.eq_false_iff]
      exact fun live => Nat.lt_irrefl _ (wf.window_lt live)
    · exact ((shownBy _).trans (if_pos rfl)).trans there.symm
    · exact fun other elsewhere => (shownBy other).trans (if_neg (Ne.symm elsewhere))
  same {call id b b'} noEdit before after := by
    have wf := wellFormed_run calls
    rw [run_append] at after
    exact (rearranges_perform wf call noEdit).same
      (wf.buffer_lt (Workspace.isLive_of_buffer? before)) before after
  killed done := ⟨Workspace.isLive_kill? (wellFormed_run calls) done,
    fun _ elsewhere _ there =>
      Workspace.buffer?_kill? (wellFormed_run calls) done (Ne.symm elsewhere) there⟩

end Run

end Desk

end EditorLisp
