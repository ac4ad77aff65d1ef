import EditorLisp.Proofs.Document.History
import EditorLisp.Proofs.Document.Order

/-!
# Remembered layouts

A layout remembers every open window with the name of the buffer that it shows.  Brought
back into another workspace, which may have lost those windows and buffers, it opens every
one of them on a buffer of that name again and selects the window that was selected.  A
window comes back as it was because the layout mentions it once only: the windows opened
after it leave it alone.
-/

namespace EditorLisp.Workspace

variable {w w' : Workspace} {win : Nat} {name : String}

/-- A window is open and shows a buffer of some name. -/
def ShowsName (w : Workspace) (win : Nat) (name : String) : Prop :=
  ∃ id, w.windowBuffer? win = some id ∧ w.bufferName? id = some name

theorem ShowsName.isLive (shown : w.ShowsName win name) : w.windows.isLive win = true := by
  obtain ⟨id, there, -⟩ := shown
  exact Windows.isLive_of_buffer? there

/-- Every open window shows a buffer, and that has a name. -/
theorem exists_showsName (wf : w.WellFormed) (open_ : w.windows.isLive win = true) :
    ∃ name, w.ShowsName win name := by
  obtain ⟨id, there⟩ := (Windows.isLive_iff ..).mp open_
  obtain ⟨b, found⟩ := (isLive_iff ..).mp (wf.shown_live there)
  exact ⟨b.name, id, there, (bufferName?_eq_some_iff ..).mpr ⟨b, found, rfl⟩⟩

/-! ## Opening remembered windows -/

theorem bufferName?_getOrCreate_of_some (c : w.Consistent) {id : Nat} {other : String}
    (named : w.bufferName? id = some name) :
    (w.getOrCreate other).2.bufferName? id = some name := by
  obtain ⟨b, there, same⟩ := (bufferName?_eq_some_iff ..).mp named
  exact (bufferName?_eq_some_iff ..).mpr ⟨b, buffer?_getOrCreate c there, same⟩

/-- The buffer of a name has that name, whether it was there or is made. -/
theorem bufferName?_getOrCreate (c : w.Consistent) (name : String) :
    (w.getOrCreate name).2.bufferName? (w.getOrCreate name).1 = some name := by
  unfold getOrCreate
  split
  next found => exact c.find?_iff.mp found
  next =>
      apply (bufferName?_eq_some_iff ..).mpr
      refine ⟨{ id := w.nextId, name }, ?_, rfl⟩
      exact (buffer?_insertNew ..).trans (if_pos rfl)

theorem showsName_restoreWindow (c : w.Consistent) (win : Nat) (name : String) :
    (w.restoreWindow win name).ShowsName win name := by
  refine ⟨(w.getOrCreate name).1, ?_, bufferName?_getOrCreate c name⟩
  rw [windowBuffer?_restoreWindow, if_pos rfl]

/-- Opening another window leaves a window as it is. -/
theorem ShowsName.restoreWindow (shown : w.ShowsName win name) (c : w.Consistent) {other : Nat}
    (elsewhere : other ≠ win) (name' : String) :
    (w.restoreWindow other name').ShowsName win name := by
  obtain ⟨id, there, named⟩ := shown
  refine ⟨id, ?_, bufferName?_getOrCreate_of_some c named⟩
  rw [windowBuffer?_restoreWindow, if_neg elsewhere, there]

theorem ShowsName.restoreWindows (shown : w.ShowsName win name) (wf : w.WellFormed)
    {windows : List (Nat × String)} (unknown : win ∉ windows.map Prod.fst) :
    (w.restoreWindows windows).ShowsName win name := by
  induction windows generalizing w with
  | nil => exact shown
  | cons e rest ih =>
      rw [List.map_cons, List.mem_cons, not_or] at unknown
      have next := shown.restoreWindow wf.toConsistent (Ne.symm unknown.1) e.2
      exact ih next (wellFormed_restoreWindow wf e.1 e.2) unknown.2

/-- A window that is mentioned once shows a buffer of its name in the end. -/
theorem showsName_restoreWindows (wf : w.WellFormed) {windows : List (Nat × String)}
    (once : (windows.map Prod.fst).Nodup) (member : (win, name) ∈ windows) :
    (w.restoreWindows windows).ShowsName win name := by
  induction windows generalizing w with
  | nil => exact absurd member List.not_mem_nil
  | cons e rest ih =>
      obtain ⟨unknown, others⟩ := List.nodup_cons.mp once
      have next := wellFormed_restoreWindow wf e.1 e.2
      rcases List.mem_cons.mp member with rfl | later
      · have opened := showsName_restoreWindow wf.toConsistent win name
        exact opened.restoreWindows next unknown
      · exact ih next others later

/-! ## Remembering windows -/

theorem windows_capture (wf : w.WellFormed) :
    w.capture.1.windows = w.windows.shown.entries.filterMap fun (win, buffer) =>
      (w.bufferName? buffer).map fun name => (win, name) := by
  obtain ⟨win, -, repaired⟩ := ensureSelected_of_wellFormed wf
  rw [capture, repaired]

theorem selected_capture (wf : w.WellFormed) :
    w.windows.selected? = some w.capture.1.selected := by
  obtain ⟨win, selected, repaired⟩ := ensureSelected_of_wellFormed wf
  rw [capture, repaired, selected]

theorem mem_windows_capture (wf : w.WellFormed) (shown : w.ShowsName win name) :
    (win, name) ∈ w.capture.1.windows := by
  obtain ⟨id, there, named⟩ := shown
  rw [windows_capture wf, List.mem_filterMap]
  refine ⟨(win, id), Table.mem_entries_of_get? there, ?_⟩
  dsimp only
  rw [named, Option.map_some]

/-- What is remembered of a window is what it showed. -/
theorem showsName_of_mem_windows_capture (wf : w.WellFormed) (ordered : w.windows.Ordered)
    (member : (win, name) ∈ w.capture.1.windows) : w.ShowsName win name := by
  rw [windows_capture wf, List.mem_filterMap] at member
  obtain ⟨⟨win', id⟩, listed, remembered⟩ := member
  obtain ⟨name', named, ⟨⟩⟩ := Option.map_eq_some_iff.mp remembered
  exact ⟨id, Table.get?_of_mem_entries ordered listed, named⟩

/-- Windows that are listed once each are remembered once each. -/
theorem nodup_windows_capture (wf : w.WellFormed) (ordered : w.windows.Ordered) :
    (w.capture.1.windows.map Prod.fst).Nodup := by
  rw [windows_capture wf]
  apply List.pairwise_map.mpr
  apply List.pairwise_filterMap.mpr
  apply List.Pairwise.imp _ ordered
  rintro ⟨win, id⟩ ⟨win', id'⟩ before ⟨_, name⟩ first ⟨_, name'⟩ second
  obtain ⟨_, -, ⟨⟩⟩ := Option.map_eq_some_iff.mp first
  obtain ⟨_, -, ⟨⟩⟩ := Option.map_eq_some_iff.mp second
  exact Nat.ne_of_lt before

/-! ## Bringing a layout back -/

/-- Selecting a window leaves the buffers, and what the windows show. -/
theorem tables_selectWindow (w : Workspace) (win : Nat) :
    (w.selectWindow win).buffers = w.buffers ∧
      (w.selectWindow win).windows.shown = w.windows.shown := by
  unfold selectWindow
  cases h : w.selectWindow? win with
  | none => exact ⟨rfl, rfl⟩
  | some w' =>
      obtain ⟨-, rfl⟩ := (selectWindow?_eq_some_iff ..).mp h
      exact ⟨rfl, rfl⟩

theorem windowBuffer?_selectWindow (w : Workspace) (win other : Nat) :
    (w.selectWindow win).windowBuffer? other = w.windowBuffer? other :=
  congrArg (Table.get? · other) (w.tables_selectWindow win).2

theorem isLive_selectWindow (w : Workspace) (win other : Nat) :
    (w.selectWindow win).windows.isLive other = w.windows.isLive other :=
  congrArg (Table.contains · other) (w.tables_selectWindow win).2

theorem ShowsName.selectWindow (shown : w.ShowsName win name) (chosen : Nat) :
    (w.selectWindow chosen).ShowsName win name := by
  obtain ⟨id, there, named⟩ := shown
  refine ⟨id, (w.windowBuffer?_selectWindow chosen win).trans there, ?_⟩
  rwa [bufferName?, buffer?, (w.tables_selectWindow chosen).1]

theorem selected?_selectWindow (open_ : w.windows.isLive win = true) :
    (w.selectWindow win).windows.selected? = some win := by
  have done := (selectWindow?_eq_some_iff w _ win).mpr ⟨open_, rfl⟩
  rw [selectWindow, done]
  exact Windows.selected?_of_isLive rfl open_

/-- Bringing a layout back makes buffers, and leaves those that are there as they are. -/
theorem buffer?_restore (wf : w.WellFormed) (layout : Layout) {id : Nat} {b : Buffer}
    (there : w.buffer? id = some b) : (w.restore layout).buffer? id = some b := by
  have kept (windows : List (Nat × String)) (w : Workspace) (wf : w.WellFormed)
      (there : w.buffer? id = some b) : (w.restoreWindows windows).buffer? id = some b := by
    induction windows generalizing w with
    | nil => exact there
    | cons e rest ih =>
        exact ih _ (wellFormed_restoreWindow wf e.1 e.2) (buffer?_getOrCreate wf.toConsistent there)
  rw [restore_of_wellFormed wf, buffer?, (tables_selectWindow ..).1]
  exact kept layout.windows w wf there

/-- Windows that a layout does not remember show what they showed, or stay closed. -/
theorem windowBuffer?_restore (wf : w.WellFormed) (layout : Layout)
    (unknown : win ∉ layout.windows.map Prod.fst) :
    (w.restore layout).windowBuffer? win = w.windowBuffer? win := by
  rw [restore_of_wellFormed wf, windowBuffer?_selectWindow, windowBuffer?_restoreWindows w _ unknown]

/-- The layout of one workspace, brought back into another one, shows in every window that
was open a buffer of the name it had then, and selects the window that was selected. -/
theorem restore_capture (wf : w.WellFormed) (ordered : w.windows.Ordered) (wf' : w'.WellFormed) :
    (∀ ⦃win name⦄, w.ShowsName win name → (w'.restore w.capture.1).ShowsName win name) ∧
      (w'.restore w.capture.1).windows.selected? = w.windows.selected? := by
  have reopened {win : Nat} {name : String} (shown : w.ShowsName win name) :=
    showsName_restoreWindows wf' (nodup_windows_capture wf ordered) (mem_windows_capture wf shown)
  have selected := selected_capture wf
  rw [restore_of_wellFormed wf']
  constructor
  · intro win name shown
    exact (reopened shown).selectWindow _
  · obtain ⟨name, shown⟩ := exists_showsName wf (Windows.isLive_of_selected? selected)
    rw [selected]
    exact selected?_selectWindow (reopened shown).isLive

/-! ## A layout that is there already -/

theorem restoreWindow_of_showsName (c : w.Consistent) (ordered : w.windows.Ordered)
    (shown : w.ShowsName win name) : w.restoreWindow win name = w := by
  obtain ⟨id, there, named⟩ := shown
  have found : w.getOrCreate name = (id, w) := by
    rw [getOrCreate, c.find?_iff.mpr named]
  have same : w.windows.shown.insert win id = w.windows.shown := Table.insert_of_get? ordered there
  rw [restoreWindow, found]
  simp only [Windows.isLive_of_buffer? there, if_true, same]

/-- A layout whose windows all show buffers of the remembered names, and whose selected window
is selected, is not changed by bringing it back. -/
theorem restore_of_showsName (wf : w.WellFormed) (ordered : w.windows.Ordered) {layout : Layout}
    (shown : ∀ e ∈ layout.windows, w.ShowsName e.1 e.2)
    (selected : w.windows.selected? = some layout.selected) : w.restore layout = w := by
  have opened (windows : List (Nat × String)) (shown : ∀ e ∈ windows, w.ShowsName e.1 e.2) :
      w.restoreWindows windows = w := by
    induction windows with
    | nil => rfl
    | cons e rest ih =>
        have first := restoreWindow_of_showsName wf.toConsistent ordered
          (shown e List.mem_cons_self)
        show (w.restoreWindow e.1 e.2).restoreWindows rest = w
        rw [first]
        exact ih fun e member => shown e (List.mem_cons_of_mem _ member)
  obtain ⟨selection, open_⟩ := (Windows.selected?_eq_some_iff ..).mp selected
  rw [restore_of_wellFormed wf, opened _ shown, selectWindow,
    (selectWindow?_eq_some_iff w _ _).mpr ⟨open_, rfl⟩, Option.getD_some, ← selection]

end EditorLisp.Workspace

/-!
## Layouts brought back in a history

A layout captured at any time may be brought back at any later one.  By then its windows may
be closed or show something else, and its buffers may be renamed, killed or made again under
the same name.  The layout names its buffers, so each window comes back on whatever buffer
has the name by then; no buffer is touched on the way, and windows that the layout does not
know stay as they are.  Once a layout is there, bringing it back does nothing: this gives
both that it is enough to do so once, and that it changes nothing right after the capture.
-/

namespace EditorLisp

namespace Workspace

/-- What a layout remembers of a workspace: the windows that are open, each with the name of
the buffer that it shows, and the selected one. -/
structure Remembers (layout : Layout) (w : Workspace) : Prop where
  mem_windows_iff : ∀ win name, (win, name) ∈ layout.windows ↔ w.ShowsName win name
  selected : w.windows.selected? = some layout.selected

/-- What a workspace has become by bringing a layout back. -/
structure Returned (layout : Layout) (w w' : Workspace) : Prop where
  /-- A remembered window is open, on the buffer that now has the remembered name. -/
  shown : ∀ win name, (win, name) ∈ layout.windows →
    w'.windows.isLive win = true ∧ ∃ id, w'.windowBuffer? win = some id ∧ w'.find? name = some id
  selected : w'.windows.selected? = some layout.selected
  /-- Other windows stay open or closed, and show what they showed. -/
  others : ∀ win, win ∉ layout.windows.map Prod.fst →
    w'.windows.isLive win = w.windows.isLive win ∧ w'.windowBuffer? win = w.windowBuffer? win
  /-- Every buffer stays, with its text, its point and all else. -/
  buffers : ∀ id b, w.buffer? id = some b → w'.buffer? id = some b
  /-- Once is enough. -/
  again : w'.restore layout = w'

variable {w w' : Workspace}

theorem remembers_capture (wf : w.WellFormed) (ordered : w.windows.Ordered) :
    Remembers w.capture.1 w where
  mem_windows_iff _ _ :=
    ⟨showsName_of_mem_windows_capture wf ordered, mem_windows_capture wf⟩
  selected := selected_capture wf

/-- A layout comes back if it remembers any workspace. -/
theorem returned_restore {layout : Layout} (remembers : Remembers layout w) (wf : w.WellFormed)
    (once : (layout.windows.map Prod.fst).Nodup) (wf' : w'.WellFormed)
    (ordered : w'.windows.Ordered) : Returned layout w' (w'.restore layout) := by
  have back := (restore_cases wf' layout).1
  have shown {win : Nat} {name : String} (member : (win, name) ∈ layout.windows) :
      (w'.restore layout).ShowsName win name := by
    rw [restore_of_wellFormed wf']
    exact (showsName_restoreWindows wf' once member).selectWindow _
  have selected : (w'.restore layout).windows.selected? = some layout.selected := by
    obtain ⟨name, there⟩ := exists_showsName wf (Windows.isLive_of_selected? remembers.selected)
    have member := (remembers.mem_windows_iff ..).mpr there
    rw [restore_of_wellFormed wf']
    exact selected?_selectWindow (showsName_restoreWindows wf' once member).isLive
  refine ⟨?_, selected, ?_, fun _ _ => buffer?_restore wf' layout, ?_⟩
  · intro win name member
    obtain ⟨id, there, named⟩ := shown member
    exact ⟨(shown member).isLive, id, there, back.find?_iff.mpr named⟩
  · intro win unknown
    have same := windowBuffer?_restore wf' layout unknown
    exact ⟨congrArg Option.isSome same, same⟩
  · exact restore_of_showsName back (ordered_restore ordered layout) (fun _ => shown) selected

end Workspace

namespace Desk

variable {d : Desk}

theorem ordered_perform (ordered : d.workspace.windows.Ordered) (call : WorkspaceCall) :
    (d.perform call).windows.Ordered := by
  have unlessDone {answer : Option Workspace}
      (done : ∀ w', answer = some w' → w'.windows.Ordered) :
      (answer.getD d.workspace).windows.Ordered :=
    getD_of_cases (P := fun w => w.windows.Ordered) ordered done
  cases call with
  | getOrCreate name => exact Workspace.ordered_getOrCreate ordered name
  | generate base => exact ordered
  | rename id name =>
      refine unlessDone fun w' h => ?_
      rwa [Workspace.windows_rename? h]
  | edit id f edited => exact ordered
  | setCurrent id => exact Workspace.ordered_setCurrent ordered id
  | switchTo name => exact Workspace.ordered_switchTo ordered name
  | kill id => exact unlessDone fun _ => Workspace.ordered_kill? ordered
  | bury id => exact Workspace.ordered_bury ordered id
  | selectWindow win => exact Workspace.ordered_selectWindow ordered win
  | setWindowBuffer win buffer =>
      exact unlessDone fun _ => Workspace.ordered_setWindowBuffer? ordered
  | splitWindow win =>
      refine unlessDone fun w' h => ?_
      obtain ⟨⟨new, _⟩, split, rfl⟩ := Option.map_eq_some_iff.mp h
      exact Workspace.ordered_splitWindow? ordered split
  | deleteWindow win => exact unlessDone fun _ => Workspace.ordered_deleteWindow? ordered
  | deleteOtherWindows keep => exact Workspace.ordered_deleteOtherWindows ordered keep
  | capture => exact Workspace.ordered_ensureSelected ordered
  | restore place =>
      refine unlessDone fun w' h => ?_
      obtain ⟨layout, -, rfl⟩ := Option.map_eq_some_iff.mp h
      exact Workspace.ordered_restore ordered layout

theorem ordered_run (calls : List WorkspaceCall) : (run calls).workspace.windows.Ordered := by
  induction calls using List.reverseRecOn with
  | nil => exact Workspace.ordered_initial
  | append_singleton calls call ih =>
      rw [run_append]
      exact ordered_perform ih call

/-- The layout captured after a history remembers the workspace of then.  Whatever happens
later it comes back, and right away there is nothing to bring back. -/
theorem returned_run (calls later : List WorkspaceCall) :
    let layout := (run calls).workspace.capture.1
    let w := (run (calls ++ later)).workspace
    Workspace.Remembers layout (run calls).workspace ∧
      Workspace.Returned layout w (w.restore layout) ∧
      (run calls).workspace.restore layout = (run calls).workspace := by
  intro layout w
  have wf := wellFormed_run calls
  have ordered := ordered_run calls
  have remembers := Workspace.remembers_capture wf ordered
  refine ⟨remembers, ?_, ?_⟩
  · exact Workspace.returned_restore remembers wf (Workspace.nodup_windows_capture wf ordered)
      (wellFormed_run _) (ordered_run _)
  · refine Workspace.restore_of_showsName wf ordered (fun e member => ?_) remembers.selected
    exact (remembers.mem_windows_iff ..).mp member

end Desk

end EditorLisp
