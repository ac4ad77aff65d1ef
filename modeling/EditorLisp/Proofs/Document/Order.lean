import EditorLisp.Proofs.Document.Arrangement
import Mathlib.Order.Nat

/-!
# Windows in order

The table of windows lists each window once, in the order of their numbers.  Every
operation on buffers and windows keeps it so, whether the workspace is well formed or not.
`Evolves` puts this beside what any change of a workspace has in common, so that it may be
carried through whole evaluations.
-/

namespace EditorLisp

namespace Windows

/-- The windows are listed once each, in the order of their numbers. -/
def Ordered (w : Windows) : Prop := w.shown.Ordered

variable {w : Windows}

theorem ordered_create (ordered : w.Ordered) (buffer : Nat) : (w.create buffer).2.Ordered :=
  Table.ordered_insert ordered ..

theorem ordered_createWithId (ordered : w.Ordered) (id buffer : Nat) :
    (w.createWithId id buffer).Ordered :=
  Table.ordered_insert ordered ..

theorem ordered_foldl_delete (ordered : w.Ordered) (ids : List Nat) :
    (ids.foldl delete w).Ordered := by
  induction ids generalizing w with
  | nil => exact ordered
  | cons id rest ih => exact ih (Table.ordered_erase ordered id)

end Windows

namespace Workspace

variable {w w' : Workspace}

theorem ordered_getOrCreate (ordered : w.windows.Ordered) (name : String) :
    (w.getOrCreate name).2.windows.Ordered := by
  rwa [windows_getOrCreate]

/-! ## The selection -/

theorem ordered_ensureWindow (ordered : w.windows.Ordered) : w.ensureWindow.2.windows.Ordered := by
  rcases ensureWindow_cases w with ⟨_, -, eq⟩ | ⟨_, -, eq⟩ | ⟨-, eq⟩ <;> rw [eq]
  · exact ordered
  · exact ordered
  · exact Windows.ordered_create ordered _

theorem ordered_ensureSelected (ordered : w.windows.Ordered) :
    w.ensureSelected.2.windows.Ordered := by
  have opened := ordered_ensureWindow ordered
  unfold ensureSelected
  dsimp only
  split
  · exact opened
  · exact Table.ordered_insert (ordered_getOrCreate opened scratchName) ..

theorem ordered_current (ordered : w.windows.Ordered) : w.current.2.windows.Ordered := by
  have selected := ordered_ensureSelected ordered
  unfold current
  dsimp only
  split
  · exact selected
  · exact ordered_getOrCreate selected scratchName

theorem ordered_initial : Workspace.initial.windows.Ordered :=
  ordered_ensureSelected (w := {}) List.Pairwise.nil

/-! ## Showing buffers in windows -/

theorem ordered_setCurrent (ordered : w.windows.Ordered) (id : Nat) :
    (w.setCurrent id).windows.Ordered := by
  unfold setCurrent setCurrent? Windows.setBuffer?
  dsimp only
  split
  · split
    · exact Table.ordered_insert (ordered_ensureSelected ordered) ..
    · exact ordered
  · exact ordered

theorem ordered_switchTo (ordered : w.windows.Ordered) (name : String) :
    (w.switchTo name).2.windows.Ordered :=
  ordered_setCurrent (ordered_getOrCreate ordered name) _

theorem ordered_bury (ordered : w.windows.Ordered) (id : Nat) : (w.bury id).windows.Ordered := by
  have repaired := ordered_current ordered
  unfold bury
  dsimp only
  split
  · exact ordered_setCurrent (ordered_getOrCreate repaired scratchName) _
  · exact repaired

theorem ordered_selectWindow (ordered : w.windows.Ordered) (win : Nat) :
    (w.selectWindow win).windows.Ordered := by
  unfold selectWindow
  cases h : w.selectWindow? win with
  | none => exact ordered
  | some w' =>
      obtain ⟨-, rfl⟩ := (selectWindow?_eq_some_iff w w' win).mp h
      exact ordered

theorem ordered_setWindowBuffer? {win buffer : Nat} (ordered : w.windows.Ordered)
    (h : w.setWindowBuffer? win buffer = some w') : w'.windows.Ordered := by
  obtain ⟨-, -, rfl⟩ := (setWindowBuffer?_eq_some_iff ..).mp h
  exact Table.ordered_insert ordered ..

/-! ## Opening and closing windows -/

theorem ordered_splitWindow? {win new : Nat} (ordered : w.windows.Ordered)
    (h : w.splitWindow? win = some (new, w')) : w'.windows.Ordered := by
  obtain ⟨buffer, -, -, rfl⟩ := (splitWindow?_eq_some_iff ..).mp h
  exact Windows.ordered_create ordered buffer

theorem ordered_deleteWindow? {win : Nat} (ordered : w.windows.Ordered)
    (h : w.deleteWindow? win = some w') : w'.windows.Ordered := by
  rw [deleteWindow?_eq_some h]
  exact ordered_ensureSelected (Table.ordered_erase ordered win)

theorem ordered_deleteOtherWindows (ordered : w.windows.Ordered) (keep : Nat) :
    (w.deleteOtherWindows keep).windows.Ordered := by
  unfold deleteOtherWindows
  split
  · exact Windows.ordered_foldl_delete ordered _
  · exact ordered

theorem ordered_kill? {id : Nat} (ordered : w.windows.Ordered) (h : w.kill? id = some w') :
    w'.windows.Ordered := by
  obtain ⟨b, -, rfl⟩ := kill?_eq_some_iff.mp h
  refine ordered_ensureSelected ?_
  rcases vacated_cases w b id with eq | eq <;> rw [eq]
  · exact Windows.ordered_foldl_delete ordered _
  · exact Table.ordered_mapValues ordered _

/-! ## Remembered layouts -/

theorem ordered_restoreWindow (ordered : w.windows.Ordered) (win : Nat) (name : String) :
    (w.restoreWindow win name).windows.Ordered := by
  have made := ordered_getOrCreate ordered name
  unfold restoreWindow
  dsimp only
  split
  · exact Table.ordered_insert made ..
  · exact Windows.ordered_createWithId made ..

theorem ordered_restore (ordered : w.windows.Ordered) (layout : Layout) :
    (w.restore layout).windows.Ordered := by
  have opened (windows : List (Nat × String)) (w : Workspace) (ordered : w.windows.Ordered) :
      (w.restoreWindows windows).windows.Ordered := by
    induction windows generalizing w with
    | nil => exact ordered
    | cons e rest ih => exact ih _ (ordered_restoreWindow ordered e.1 e.2)
  exact ordered_ensureSelected (ordered_selectWindow (opened layout.windows w ordered) _)

/-! ## What any change has in common -/

/-- What evaluation may make of a workspace: no number is given out twice, and the windows
stay in order. -/
structure Evolves (w w' : Workspace) : Prop extends Follows w w' where
  ordered : w.windows.Ordered → w'.windows.Ordered

namespace Evolves

variable {w'' : Workspace}

@[refl]
theorem refl (w : Workspace) : Evolves w w := ⟨.refl w, fun ordered => ordered⟩

theorem trans (first : Evolves w w') (second : Evolves w' w'') : Evolves w w'' :=
  ⟨first.toFollows.trans second.toFollows, second.ordered ∘ first.ordered⟩

end Evolves

theorem evolves_modifyBuffer {id : Nat} {f : Buffer → Buffer} : w.Evolves (w.modifyBuffer id f) :=
  ⟨follows_modifyBuffer, fun ordered => ordered⟩

theorem evolves_kill? {id : Nat} (wf : w.WellFormed) (h : w.kill? id = some w') : w.Evolves w' :=
  ⟨(kill?_cases wf h).2.toFollows, fun ordered => ordered_kill? ordered h⟩

end Workspace

end EditorLisp
