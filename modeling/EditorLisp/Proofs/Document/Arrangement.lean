import EditorLisp.Proofs.Document.Workspace

/-!
# Rearranging buffers and windows

Every operation that shows a buffer, opens or closes windows, kills a buffer or brings a
layout back keeps a workspace well formed and only rearranges it: the texts and points of
the buffers that stay are left alone.
-/

namespace EditorLisp.Workspace

/-! ## Showing buffers in windows -/

section Showing

variable {w w' : Workspace}

/-- An open window may show any live buffer. -/
theorem wellFormed_show (wf : w.WellFormed) {win id : Nat} (open_ : w.windows.isLive win = true)
    (live : w.isLive id = true) :
    ({ w with windows := { w.windows with shown := w.windows.shown.insert win id } } :
      Workspace).WellFormed := by
  let windows : Windows := { w.windows with shown := w.windows.shown.insert win id }
  have shownBy (other : Nat) : windows.buffer? other =
      if win = other then some id else w.windows.buffer? other :=
    Table.get?_insert ..
  have sameLive (other : Nat) : windows.isLive other = w.windows.isLive other := by
    refine (Table.contains_insert ..).trans ?_
    by_cases here : win = other
    · subst here
      rw [decide_eq_true rfl, Bool.true_or]
      exact open_.symm
    · rw [decide_eq_false here, Bool.false_or]
      rfl
  obtain ⟨chosen, selected⟩ := wf.selected_live
  refine ⟨wf.toConsistent.withWindows ?_, ?_, chosen, ?_⟩
  · intro other there
    exact wf.window_lt ((sameLive other).symm.trans there)
  · intro other id' there
    have there : windows.buffer? other = some id' := there
    rw [shownBy] at there
    split at there
    next => cases there; exact live
    next => exact wf.shown_live there
  · have sameSelected : windows.selected? = w.windows.selected? :=
      Windows.selected?_congr rfl sameLive
    exact sameSelected.trans selected

theorem setCurrent?_eq_some_iff (wf : w.WellFormed) (id : Nat) :
    w.setCurrent? id = some w' ↔ w.isLive id = true ∧ ∃ win, w.windows.selected? = some win ∧
      w' = { w with windows := { w.windows with shown := w.windows.shown.insert win id } } := by
  obtain ⟨win, selected, repaired⟩ := ensureSelected_of_wellFormed wf
  have live := Windows.isLive_of_selected? selected
  unfold setCurrent?
  split
  next alive =>
      simp only [repaired, Windows.setBuffer?, live, if_true, Option.map_some, Option.some.injEq,
        alive, true_and, selected]
      exact ⟨fun same => ⟨win, rfl, same.symm⟩, fun ⟨_, same, eq⟩ => by rw [eq, ← same]⟩
  next dead => simp [dead]

theorem setCurrent?_cases (wf : w.WellFormed) {id : Nat} (h : w.setCurrent? id = some w') :
    w'.WellFormed ∧ w.Rearranges w' := by
  obtain ⟨live, win, selected, rfl⟩ := (setCurrent?_eq_some_iff wf id).mp h
  exact ⟨wellFormed_show wf (Windows.isLive_of_selected? selected) live,
    rearranges_withWindows _ _ (Nat.le_refl _)⟩

theorem wellFormed_setCurrent (wf : w.WellFormed) (id : Nat) : (w.setCurrent id).WellFormed := by
  unfold setCurrent
  cases h : w.setCurrent? id with
  | none => exact wf
  | some w' => exact (setCurrent?_cases wf h).1

theorem rearranges_setCurrent (wf : w.WellFormed) (id : Nat) : w.Rearranges (w.setCurrent id) := by
  unfold setCurrent
  cases h : w.setCurrent? id with
  | none => exact Rearranges.refl w
  | some w' => exact (setCurrent?_cases wf h).2

theorem wellFormed_switchTo (wf : w.WellFormed) (name : String) : (w.switchTo name).2.WellFormed :=
  wellFormed_setCurrent (wellFormed_getOrCreate wf) _

theorem rearranges_switchTo (wf : w.WellFormed) (name : String) :
    w.Rearranges (w.switchTo name).2 :=
  rearranges_getOrCreate.trans (rearranges_setCurrent (wellFormed_getOrCreate wf) _)

theorem bury_of_wellFormed (wf : w.WellFormed) (id : Nat) :
    w.bury id = w ∨ w.bury id = (w.switchTo scratchName).2 := by
  obtain ⟨win, current, b, -, -, -, repaired⟩ := current_of_wellFormed wf
  unfold bury
  rw [repaired]
  by_cases here : current = id
  · exact Or.inr (if_pos here)
  · exact Or.inl (if_neg here)

theorem wellFormed_bury (wf : w.WellFormed) (id : Nat) : (w.bury id).WellFormed := by
  rcases bury_of_wellFormed wf id with eq | eq <;> rw [eq]
  · exact wf
  · exact wellFormed_switchTo wf scratchName

theorem rearranges_bury (wf : w.WellFormed) (id : Nat) : w.Rearranges (w.bury id) := by
  rcases bury_of_wellFormed wf id with eq | eq <;> rw [eq]
  exact rearranges_switchTo wf scratchName

theorem selectWindow?_eq_some_iff (w w' : Workspace) (win : Nat) :
    w.selectWindow? win = some w' ↔ w.windows.isLive win = true ∧
      w' = { w with windows := { w.windows with selection := some win } } := by
  unfold selectWindow?
  rw [Option.map_eq_some_iff]
  constructor
  · rintro ⟨windows, selected, rfl⟩
    obtain ⟨live, rfl⟩ := (Windows.select?_eq_some_iff ..).mp selected
    exact ⟨live, rfl⟩
  · rintro ⟨live, rfl⟩
    exact ⟨_, (Windows.select?_eq_some_iff ..).mpr ⟨live, rfl⟩, rfl⟩

theorem wellFormed_select (wf : w.WellFormed) {win : Nat} (open_ : w.windows.isLive win = true) :
    ({ w with windows := { w.windows with selection := some win } } : Workspace).WellFormed where
  toConsistent := wf.toConsistent.withWindows wf.window_lt
  shown_live := wf.shown_live
  selected_live := ⟨win, Windows.selected?_of_isLive rfl open_⟩

theorem wellFormed_selectWindow (wf : w.WellFormed) (win : Nat) :
    (w.selectWindow win).WellFormed := by
  unfold selectWindow
  cases h : w.selectWindow? win with
  | none => exact wf
  | some w' =>
      obtain ⟨live, rfl⟩ := (selectWindow?_eq_some_iff w w' win).mp h
      exact wellFormed_select wf live

theorem rearranges_selectWindow (w : Workspace) (win : Nat) : w.Rearranges (w.selectWindow win) := by
  unfold selectWindow
  cases h : w.selectWindow? win with
  | none => exact Rearranges.refl w
  | some w' =>
      obtain ⟨-, rfl⟩ := (selectWindow?_eq_some_iff w w' win).mp h
      exact rearranges_withWindows _ _ (Nat.le_refl _)

theorem setWindowBuffer?_eq_some_iff (w w' : Workspace) (win buffer : Nat) :
    w.setWindowBuffer? win buffer = some w' ↔
      w.isLive buffer = true ∧ w.windows.isLive win = true ∧
        w' = { w with windows := { w.windows with shown := w.windows.shown.insert win buffer } } := by
  unfold setWindowBuffer? Windows.setBuffer?
  split
  next live =>
      split
      next open_ => simp [live, open_, eq_comm]
      next closed => simp [closed]
  next dead => simp [dead]

theorem setWindowBuffer?_cases (wf : w.WellFormed) {win buffer : Nat}
    (h : w.setWindowBuffer? win buffer = some w') : w'.WellFormed ∧ w.Rearranges w' := by
  obtain ⟨live, open_, rfl⟩ := (setWindowBuffer?_eq_some_iff ..).mp h
  exact ⟨wellFormed_show wf open_ live, rearranges_withWindows _ _ (Nat.le_refl _)⟩

end Showing

/-! ## Opening and closing windows -/

section Opening

variable {w w' : Workspace}

theorem splitWindow?_eq_some_iff (w w' : Workspace) (win new : Nat) :
    w.splitWindow? win = some (new, w') ↔ ∃ buffer, w.windowBuffer? win = some buffer ∧
      new = w.windows.nextId ∧ w' = { w with windows := (w.windows.create buffer).2 } := by
  unfold splitWindow?
  rw [Option.map_eq_some_iff]
  refine exists_congr fun buffer => and_congr_right fun _ => ?_
  rw [Prod.mk.injEq]
  exact and_congr ⟨fun same => same.symm, fun same => same.symm⟩
    ⟨fun same => same.symm, fun same => same.symm⟩

theorem splitWindow?_cases (wf : w.WellFormed) {win new : Nat}
    (h : w.splitWindow? win = some (new, w')) : w'.WellFormed ∧ w.Rearranges w' := by
  obtain ⟨buffer, there, -, rfl⟩ := (splitWindow?_eq_some_iff ..).mp h
  refine ⟨⟨wf.toConsistent.withWindows ?_, ?_, ?_⟩, rearranges_withWindows _ _ (Nat.le_succ _)⟩
  · intro other live
    obtain ⟨id, shown⟩ := (Windows.isLive_iff ..).mp live
    rw [Windows.buffer?_create] at shown
    have step : (w.windows.create buffer).2.nextId = w.windows.nextId + 1 := rfl
    split at shown
    next => omega
    next =>
        have := wf.window_lt (Windows.isLive_of_buffer? shown)
        omega
  · intro other id shown
    rw [windowBuffer?, Windows.buffer?_create] at shown
    split at shown
    next =>
        cases shown
        exact wf.shown_live there
    next => exact wf.shown_live shown
  · obtain ⟨chosen, selected⟩ := wf.selected_live
    obtain ⟨selection, live⟩ := (Windows.selected?_eq_some_iff ..).mp selected
    refine ⟨chosen, Windows.selected?_of_isLive selection ?_⟩
    exact (Table.contains_insert ..).trans (by rw [← Windows.isLive, live, Bool.or_true])

/-- Closing windows leaves the tables in agreement and the others showing what they showed. -/
theorem consistent_closing (wf : w.WellFormed) (windows : Windows)
    (sameId : windows.nextId = w.windows.nextId)
    (fewer : ∀ {win id}, windows.buffer? win = some id → w.windowBuffer? win = some id) :
    ({ w with windows } : Workspace).Consistent ∧ ({ w with windows } : Workspace).ShowsLive := by
  constructor
  · refine wf.toConsistent.withWindows fun live => ?_
    obtain ⟨id, there⟩ := (Windows.isLive_iff ..).mp live
    rw [sameId]
    exact wf.window_lt (Windows.isLive_of_buffer? (fewer there))
  · intro win id there
    exact wf.shown_live (fewer there)

theorem deleteWindow?_eq_some {win : Nat} (h : w.deleteWindow? win = some w') :
    w' = (ensureSelected { w with windows := w.windows.delete win }).2 := by
  unfold deleteWindow? at h
  split at h
  · cases h
  · exact (Option.some.inj h).symm

theorem deleteWindow?_cases (wf : w.WellFormed) {win : Nat} (h : w.deleteWindow? win = some w') :
    w'.WellFormed ∧ w.Rearranges w' := by
  obtain ⟨c, shown⟩ := consistent_closing wf (w.windows.delete win) rfl (by
    intro other id there
    rw [Windows.buffer?_delete] at there
    split at there
    · cases there
    · exact there)
  rw [deleteWindow?_eq_some h, ensureSelected_eq c shown]
  exact ⟨(wellFormed_ensureWindow c shown).1,
    (rearranges_withWindows w (w.windows.delete win) (Nat.le_refl _)).trans
      (rearranges_ensureWindow _)⟩

theorem deleteOtherWindows_cases (wf : w.WellFormed) (keep : Nat) :
    (w.deleteOtherWindows keep).WellFormed ∧ w.Rearranges (w.deleteOtherWindows keep) := by
  unfold deleteOtherWindows
  split
  next live =>
      let others := w.windows.ids.filter (· ≠ keep)
      let closed := others.foldl Windows.delete w.windows
      have shownBy (win : Nat) := Windows.buffer?_foldl_delete others w.windows win
      have sameId : closed.nextId = w.windows.nextId := Windows.nextId_foldl_delete others w.windows
      obtain ⟨c, shown⟩ := consistent_closing wf closed sameId (by
        intro win id there
        rw [shownBy] at there
        split at there
        · cases there
        · exact there)
      have kept : closed.isLive keep = true := by
        obtain ⟨id, there⟩ := (Windows.isLive_iff ..).mp live
        have unlisted : keep ∉ others := fun listed => by
          simpa using (List.mem_filter.mp listed).2
        exact Windows.isLive_of_buffer? (by rw [shownBy, if_neg unlisted, there])
      exact ⟨⟨c.withWindows c.window_lt, shown, keep, Windows.selected?_of_isLive rfl kept⟩,
        rearranges_withWindows _ _ (Nat.le_of_eq sameId.symm)⟩
  next => exact ⟨wf, Rearranges.refl w⟩

end Opening

/-! ## Killing buffers -/

section Killing

variable {w w' : Workspace} {id : Nat} {b : Buffer}

/-- A workspace without one of its buffers; windows may still show it. -/
def without (w : Workspace) (b : Buffer) (id : Nat) : Workspace :=
  { w with buffers := w.buffers.erase id, byName := w.byName.erase b.name }

theorem buffer?_without (w : Workspace) (b : Buffer) (id other : Nat) :
    (w.without b id).buffer? other = if id = other then none else w.buffer? other :=
  Table.get?_erase ..

theorem find?_without (w : Workspace) (b : Buffer) (id : Nat) (name : String) :
    (w.without b id).find? name = if b.name = name then none else w.find? name :=
  Table.get?_erase ..

theorem isLive_without {other : Nat} :
    (w.without b id).isLive other = true ↔ id ≠ other ∧ w.isLive other = true := by
  refine Iff.trans (by rw [isLive, without, Table.contains_erase]) ?_
  simp [isLive]

theorem consistent_without (c : w.Consistent) (there : w.buffer? id = some b) :
    (w.without b id).Consistent where
  id_eq {other b'} found := by
    rw [buffer?_without] at found
    split at found
    · cases found
    · exact c.id_eq found
  find?_iff {name other} := by
    have named : w.bufferName? id = some b.name := by rw [bufferName?, there, Option.map_some]
    rw [find?_without, bufferName?, buffer?_without]
    by_cases here : id = other
    · subst here
      rw [if_pos rfl, Option.map_none]
      by_cases gone : b.name = name
      · simp [gone]
      · rw [if_neg gone, c.find?_iff, named]
        simp [gone]
    · rw [if_neg here]
      by_cases gone : b.name = name
      · subst gone
        have unnamed : ¬ w.bufferName? other = some b.name := fun taken =>
          here (c.bufferName?_injective named taken)
        simpa [bufferName?] using unnamed
      · rw [if_neg gone]
        exact c.find?_iff
  point_le {other b'} found := by
    rw [buffer?_without] at found
    split at found
    · cases found
    · exact c.point_le found
  buffer_lt live := c.buffer_lt (isLive_without.mp live).2
  window_lt := c.window_lt

theorem rearranges_without (w : Workspace) (b : Buffer) (id : Nat) :
    w.Rearranges (w.without b id) where
  nextId_le := Nat.le_refl _
  windowId_le := Nat.le_refl _
  live_before live := Or.inl (isLive_without.mp live).2
  same {other b' b''} old before after := by
    rw [buffer?_without] at after
    split at after
    · cases after
    · exact (Rearranges.refl w).same old before after

/-- A workspace without one of its buffers, before the selection is repaired: with the last
buffer all windows go, else those that showed it show the scratch buffer. -/
def vacated (w : Workspace) (b : Buffer) (id : Nat) : Workspace :=
  let rest := w.without b id
  if rest.buffers.isEmpty then
    { rest with windows := rest.windows.ids.foldl Windows.delete rest.windows }
  else
    { (rest.getOrCreate scratchName).2 with
      windows := rest.windows.retarget id (rest.getOrCreate scratchName).1 }

theorem kill?_eq_some_iff :
    w.kill? id = some w' ↔ ∃ b, w.buffer? id = some b ∧ w' = (w.vacated b id).ensureSelected.2 := by
  unfold kill?
  rw [Option.map_eq_some_iff]
  refine exists_congr fun b => and_congr_right fun _ => ?_
  rw [eq_comm]
  refine Eq.congr_right ?_
  unfold vacated
  by_cases last : (w.without b id).buffers.isEmpty = true
  · rw [if_pos last]
    exact if_pos last
  · rw [if_neg last, ← windows_getOrCreate (w.without b id) scratchName]
    exact if_neg last

theorem vacated_cases (w : Workspace) (b : Buffer) (id : Nat) :
    w.vacated b id =
        { w.without b id with windows := w.windows.ids.foldl Windows.delete w.windows } ∨
      w.vacated b id =
        { ((w.without b id).getOrCreate scratchName).2 with
          windows := w.windows.retarget id ((w.without b id).getOrCreate scratchName).1 } := by
  by_cases last : (w.without b id).buffers.isEmpty = true
  · exact Or.inl (if_pos last)
  · exact Or.inr (if_neg last)

theorem rearranges_vacating (w : Workspace) (b : Buffer) (id : Nat) :
    (w.without b id).Rearranges (w.vacated b id) := by
  rcases vacated_cases w b id with eq | eq <;> rw [eq]
  · exact rearranges_withWindows _ _ (Nat.le_of_eq (Windows.nextId_foldl_delete ..).symm)
  · refine rearranges_getOrCreate.trans (rearranges_withWindows _ _ ?_)
    rw [windows_getOrCreate]
    exact Nat.le_refl _

theorem rearranges_vacated (w : Workspace) (b : Buffer) (id : Nat) :
    w.Rearranges (w.vacated b id) :=
  (rearranges_without w b id).trans (rearranges_vacating w b id)

/-- The other buffers stay as they are. -/
theorem buffer?_vacated (c : w.Consistent) (there : w.buffer? id = some b) {other : Nat}
    {b' : Buffer} (elsewhere : id ≠ other) (found : w.buffer? other = some b') :
    (w.vacated b id).buffer? other = some b' := by
  have kept : (w.without b id).buffer? other = some b' := by
    rw [buffer?_without, if_neg elsewhere, found]
  rcases vacated_cases w b id with eq | eq <;> rw [eq]
  · exact kept
  · exact buffer?_getOrCreate (consistent_without c there) kept

/-- A window that is left shows what it showed, unless that was the buffer killed. -/
theorem windowBuffer?_vacated {win shown : Nat}
    (there : (w.vacated b id).windowBuffer? win = some shown) :
    ∃ before, w.windowBuffer? win = some before ∧ (before = id ∨ shown = before) := by
  rcases vacated_cases w b id with eq | eq <;> rw [eq] at there
  · exact absurd (there.symm.trans (Windows.buffer?_deleteAll ..)) (by simp)
  · obtain ⟨before, found, same⟩ :=
      Option.map_eq_some_iff.mp ((Windows.buffer?_retarget ..).symm.trans there)
    refine ⟨before, found, ?_⟩
    split at same
    next here => exact Or.inl here
    next => exact Or.inr same.symm

theorem consistent_vacated (wf : w.WellFormed) (there : w.buffer? id = some b) :
    (w.vacated b id).Consistent := by
  have c := consistent_without wf.toConsistent there
  have lt {win : Nat} (live : (w.vacated b id).windows.isLive win = true) :
      win < (w.vacated b id).windows.nextId := by
    obtain ⟨shown, found⟩ := (Windows.isLive_iff ..).mp live
    obtain ⟨before, old, -⟩ := windowBuffer?_vacated found
    exact Nat.lt_of_lt_of_le (wf.window_lt (Windows.isLive_of_buffer? old))
      (rearranges_vacated w b id).windowId_le
  rcases vacated_cases w b id with eq | eq <;> rw [eq] at lt ⊢
  · exact c.withWindows lt
  · exact (consistent_getOrCreate c).withWindows lt

theorem showsLive_vacated (wf : w.WellFormed) (there : w.buffer? id = some b) :
    (w.vacated b id).ShowsLive := by
  have c := consistent_without wf.toConsistent there
  intro win shown found
  rcases vacated_cases w b id with eq | eq <;> rw [eq] at found ⊢
  · exact absurd (found.symm.trans (Windows.buffer?_deleteAll ..)) (by simp)
  · obtain ⟨before, old, same⟩ :=
      Option.map_eq_some_iff.mp ((Windows.buffer?_retarget ..).symm.trans found)
    split at same
    next =>
        cases same
        exact isLive_getOrCreate c
    next elsewhere =>
        cases same
        exact isLive_getOrCreate_of_isLive c
          (isLive_without.mpr ⟨Ne.symm elsewhere, wf.shown_live old⟩)

theorem kill?_cases (wf : w.WellFormed) (h : w.kill? id = some w') :
    w'.WellFormed ∧ w.Rearranges w' := by
  obtain ⟨b, there, rfl⟩ := kill?_eq_some_iff.mp h
  have c := consistent_vacated wf there
  have shown := showsLive_vacated wf there
  rw [ensureSelected_eq c shown]
  exact ⟨(wellFormed_ensureWindow c shown).1,
    (rearranges_vacated w b id).trans (rearranges_ensureWindow _)⟩

/-- Killing a buffer leaves every other one as it is. -/
theorem buffer?_kill? (wf : w.WellFormed) (h : w.kill? id = some w') {other : Nat} {b : Buffer}
    (elsewhere : id ≠ other) (found : w.buffer? other = some b) : w'.buffer? other = some b := by
  obtain ⟨killed, there, rfl⟩ := kill?_eq_some_iff.mp h
  have c := consistent_vacated wf there
  rw [ensureSelected_eq c (showsLive_vacated wf there)]
  exact buffer?_ensureWindow c (buffer?_vacated wf.toConsistent there elsewhere found)

/-- A killed buffer is gone, even where the scratch buffer was made anew. -/
theorem isLive_kill? (wf : w.WellFormed) (h : w.kill? id = some w') : w'.isLive id = false := by
  obtain ⟨b, there, rfl⟩ := kill?_eq_some_iff.mp h
  rw [ensureSelected_eq (consistent_vacated wf there) (showsLive_vacated wf there),
    Bool.eq_false_iff]
  intro live
  have old : id < (w.without b id).nextId := wf.buffer_lt (isLive_of_buffer? there)
  have since := (rearranges_vacating w b id).trans (rearranges_ensureWindow _)
  rcases since.live_before live with left | fresh
  · exact (isLive_without.mp left).1 rfl
  · omega

end Killing

/-! ## Remembered layouts -/

section Layouts

variable {w : Workspace}

theorem capture_of_wellFormed (wf : w.WellFormed) : w.capture.2 = w := by
  obtain ⟨win, -, repaired⟩ := ensureSelected_of_wellFormed wf
  unfold capture
  rw [repaired]

theorem windowBuffer?_restoreWindow (w : Workspace) (win : Nat) (name : String) (other : Nat) :
    (w.restoreWindow win name).windowBuffer? other =
      if win = other then some (w.getOrCreate name).1 else w.windowBuffer? other := by
  unfold restoreWindow windowBuffer?
  simp only [windows_getOrCreate]
  split
  · exact Table.get?_insert ..
  · exact Windows.buffer?_createWithId ..

theorem windows_restoreWindow (w : Workspace) (win : Nat) (name : String) :
    (w.restoreWindow win name).windows.selection = w.windows.selection ∧
      w.windows.nextId ≤ (w.restoreWindow win name).windows.nextId ∧
      (w.windows.isLive win = false → win < (w.restoreWindow win name).windows.nextId) := by
  unfold restoreWindow
  simp only [windows_getOrCreate]
  split
  next open_ => exact ⟨rfl, Nat.le_refl _, fun closed => by rw [open_] at closed; cases closed⟩
  next =>
      obtain ⟨further, beyond⟩ :=
        Windows.nextId_le_createWithId w.windows win (w.getOrCreate name).1
      exact ⟨rfl, further, fun _ => beyond⟩

theorem rearranges_restoreWindow (w : Workspace) (win : Nat) (name : String) :
    w.Rearranges (w.restoreWindow win name) := by
  have further := (windows_restoreWindow w win name).2.1
  unfold restoreWindow at further ⊢
  refine rearranges_getOrCreate.trans (rearranges_withWindows _ _ ?_)
  rw [windows_getOrCreate]
  exact further

theorem wellFormed_restoreWindow (wf : w.WellFormed) (win : Nat) (name : String) :
    (w.restoreWindow win name).WellFormed := by
  obtain ⟨sameSelection, further, beyond⟩ := windows_restoreWindow w win name
  have isLive_iff_shown (other : Nat) :
      (w.restoreWindow win name).windows.isLive other = true ↔
        win = other ∨ w.windows.isLive other = true := by
    rw [Windows.isLive_iff, Windows.isLive_iff]
    have shownBy := windowBuffer?_restoreWindow w win name other
    rw [windowBuffer?] at shownBy
    rw [shownBy]
    by_cases here : win = other
    · simp [here]
    · simp [here, windowBuffer?]
  have lt {other : Nat} (live : (w.restoreWindow win name).windows.isLive other = true) :
      other < (w.restoreWindow win name).windows.nextId := by
    rcases (isLive_iff_shown other).mp live with rfl | old
    · cases open_ : w.windows.isLive win with
      | false => exact beyond open_
      | true => exact Nat.lt_of_lt_of_le (wf.window_lt open_) further
    · exact Nat.lt_of_lt_of_le (wf.window_lt old) further
  refine ⟨(consistent_getOrCreate wf.toConsistent).withWindows lt, ?_, ?_⟩
  · intro other id found
    rw [windowBuffer?_restoreWindow] at found
    split at found
    next =>
        cases found
        exact isLive_getOrCreate wf.toConsistent
    next => exact isLive_getOrCreate_of_isLive wf.toConsistent (wf.shown_live found)
  · obtain ⟨chosen, selected⟩ := wf.selected_live
    obtain ⟨selection, live⟩ := (Windows.selected?_eq_some_iff ..).mp selected
    exact ⟨chosen, Windows.selected?_of_isLive (sameSelection.trans selection)
      ((isLive_iff_shown chosen).mpr (Or.inr live))⟩

/-- The windows of a layout, opened again one after the other. -/
def restoreWindows (w : Workspace) (windows : List (Nat × String)) : Workspace :=
  windows.foldl (fun w e => w.restoreWindow e.1 e.2) w

theorem restoreWindows_cases (wf : w.WellFormed) (windows : List (Nat × String)) :
    (w.restoreWindows windows).WellFormed ∧ w.Rearranges (w.restoreWindows windows) := by
  induction windows generalizing w with
  | nil => exact ⟨wf, Rearranges.refl w⟩
  | cons e rest ih =>
      obtain ⟨restored, arranged⟩ := ih (wellFormed_restoreWindow wf e.1 e.2)
      exact ⟨restored, (rearranges_restoreWindow w e.1 e.2).trans arranged⟩

theorem restore_of_wellFormed (wf : w.WellFormed) (layout : Layout) :
    w.restore layout = (w.restoreWindows layout.windows).selectWindow layout.selected := by
  have selected := wellFormed_selectWindow (restoreWindows_cases wf layout.windows).1
    layout.selected
  obtain ⟨win, -, repaired⟩ := ensureSelected_of_wellFormed selected
  exact congrArg Prod.snd repaired

theorem restore_cases (wf : w.WellFormed) (layout : Layout) :
    (w.restore layout).WellFormed ∧ w.Rearranges (w.restore layout) := by
  obtain ⟨restored, arranged⟩ := restoreWindows_cases wf layout.windows
  rw [restore_of_wellFormed wf]
  exact ⟨wellFormed_selectWindow restored layout.selected,
    arranged.trans (rearranges_selectWindow _ _)⟩

/-- Windows that a layout does not remember show what they showed. -/
theorem windowBuffer?_restoreWindows (w : Workspace) (windows : List (Nat × String)) {win : Nat}
    (unknown : win ∉ windows.map Prod.fst) :
    (w.restoreWindows windows).windowBuffer? win = w.windowBuffer? win := by
  induction windows generalizing w with
  | nil => rfl
  | cons e rest ih =>
      rw [List.map_cons, List.mem_cons, not_or] at unknown
      refine (ih (w.restoreWindow e.1 e.2) unknown.2).trans ?_
      rw [windowBuffer?_restoreWindow, if_neg (Ne.symm unknown.1)]

end Layouts

end EditorLisp.Workspace
