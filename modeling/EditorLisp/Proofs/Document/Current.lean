import EditorLisp.Proofs.Document.Order

/-!
# The current buffer

The current buffer is the one that the selected window shows, and nothing else says which
it is.  Making a buffer current therefore changes one window, and the current buffer stays
the same under whatever keeps the selected window and what that shows.
-/

namespace EditorLisp.Workspace

variable {w w' : Workspace} {win id : Nat}

/-- The current buffer is what the selected window shows. -/
theorem current_of_shown (wf : w.WellFormed) (selected : w.windows.selected? = some win)
    (shown : w.windowBuffer? win = some id) : w.current = (id, w) := by
  obtain ⟨win', id', b, chosen, there, -, found⟩ := current_of_wellFormed wf
  rw [selected] at chosen
  cases chosen
  rw [shown] at there
  cases there
  exact found

/-- The window that is selected, and the current buffer in it. -/
theorem exists_shown_current (wf : w.WellFormed) :
    ∃ win, w.windows.selected? = some win ∧ w.windowBuffer? win = some w.current.1 := by
  obtain ⟨win, id, b, selected, shown, -, found⟩ := current_of_wellFormed wf
  rw [found]
  exact ⟨win, selected, shown⟩

theorem isLive_current (wf : w.WellFormed) : w.isLive w.current.1 = true := by
  obtain ⟨win, -, shown⟩ := exists_shown_current wf
  exact wf.shown_live shown

/-- Whatever leaves the windows alone leaves the current buffer current. -/
theorem current_congr (wf : w.WellFormed) (wf' : w'.WellFormed) (same : w'.windows = w.windows) :
    w'.current.1 = w.current.1 := by
  obtain ⟨win, selected, shown⟩ := exists_shown_current wf
  rw [← same] at selected
  rw [windowBuffer?, ← same] at shown
  rw [current_of_shown wf' selected shown]

/-! ## Making a buffer current -/

theorem setCurrent_of_isLive (wf : w.WellFormed) (selected : w.windows.selected? = some win)
    (live : w.isLive id = true) :
    w.setCurrent id =
      { w with windows := { w.windows with shown := w.windows.shown.insert win id } } := by
  have done := (setCurrent?_eq_some_iff wf id).mpr ⟨live, win, selected, rfl⟩
  rw [setCurrent, done]
  rfl

theorem setCurrent_of_not_isLive (dead : w.isLive id = false) : w.setCurrent id = w := by
  have refused : w.setCurrent? id = none := by
    rw [setCurrent?, dead]
    rfl
  rw [setCurrent, refused]
  rfl

/-- Only the selected window changes. -/
theorem windowBuffer?_setCurrent (wf : w.WellFormed) (selected : w.windows.selected? = some win)
    (live : w.isLive id = true) (other : Nat) :
    (w.setCurrent id).windowBuffer? other =
      if win = other then some id else w.windowBuffer? other := by
  rw [setCurrent_of_isLive wf selected live]
  exact Table.get?_insert ..

theorem buffers_setCurrent (wf : w.WellFormed) (id : Nat) :
    (w.setCurrent id).buffers = w.buffers := by
  obtain ⟨win, selected⟩ := wf.selected_live
  cases live : w.isLive id with
  | true => rw [setCurrent_of_isLive wf selected live]
  | false => rw [setCurrent_of_not_isLive live]

theorem isLive_setCurrent (wf : w.WellFormed) (id other : Nat) :
    (w.setCurrent id).isLive other = w.isLive other := by
  rw [isLive, buffers_setCurrent wf, isLive]

/-- The selected window stays the same. -/
theorem selected?_setCurrent (wf : w.WellFormed) (id : Nat) :
    (w.setCurrent id).windows.selected? = w.windows.selected? := by
  obtain ⟨win, selected⟩ := wf.selected_live
  cases live : w.isLive id with
  | true =>
      have shown := windowBuffer?_setCurrent wf selected live win
      rw [if_pos rfl] at shown
      rw [selected]
      apply Windows.selected?_of_isLive _ (Windows.isLive_of_buffer? shown)
      rw [setCurrent_of_isLive wf selected live]
      exact ((Windows.selected?_eq_some_iff ..).mp selected).1
  | false => rw [setCurrent_of_not_isLive live]

theorem current_setCurrent (wf : w.WellFormed) (live : w.isLive id = true) :
    (w.setCurrent id).current.1 = id := by
  obtain ⟨win, selected⟩ := wf.selected_live
  have shown := windowBuffer?_setCurrent wf selected live win
  rw [if_pos rfl] at shown
  have kept := (selected?_setCurrent wf id).trans selected
  rw [current_of_shown (wellFormed_setCurrent wf id) kept shown]

/-- Back in a buffer, at a position that may lie beyond the end of its text. -/
theorem current_setCurrent_goto (wf : w.WellFormed) (live : w.isLive id = true) (pos : Nat) :
    let back := (w.setCurrent id).modifyBuffer id (·.goto pos)
    back.current.1 = id ∧ ∃ b, back.buffer? id = some b ∧ b.point = min pos b.size := by
  intro back
  have wf₁ := wellFormed_setCurrent wf id
  have wf₂ : back.WellFormed := wellFormed_modifyBuffer wf₁ fun _ _ => Buffer.edited_goto ..
  rw [← isLive_setCurrent wf id] at live
  obtain ⟨b, there⟩ := (isLive_iff ..).mp live
  constructor
  · rw [isLive_setCurrent wf] at live
    exact (current_congr wf₁ wf₂ rfl).trans (current_setCurrent wf live)
  · refine ⟨b.goto pos, ?_, rfl⟩
    rw [buffer?_modifyBuffer, if_pos rfl, there, Option.map_some]

/-! ## Killing another buffer -/

/-- While another buffer is left, windows that showed the killed one show the scratch
buffer. -/
theorem vacated_of_isLive {b : Buffer} {other : Nat} (left : (w.without b id).isLive other = true) :
    w.vacated b id =
      { ((w.without b id).getOrCreate scratchName).2 with
        windows := w.windows.retarget id ((w.without b id).getOrCreate scratchName).1 } := by
  apply if_neg
  intro last
  have listed := (Table.mem_keys_iff _ _).mpr left
  have none : (w.without b id).buffers.entries = [] := List.isEmpty_iff.mp last
  rw [Table.keys, none] at listed
  exact List.not_mem_nil listed

/-- Whether it was there to be killed or not, a buffer is gone afterwards. -/
theorem isLive_kill?_getD (wf : w.WellFormed) (id : Nat) :
    ((w.kill? id).getD w).isLive id = false := by
  cases killed : w.kill? id with
  | some w' => exact isLive_kill? wf killed
  | none =>
      have missing : w.buffer? id = none := Option.map_eq_none_iff.mp killed
      exact (Table.get?_eq_none_iff ..).mp missing

/-- Killing a buffer that is not current leaves the current one current. -/
theorem current_kill? (wf : w.WellFormed) (killed : w.kill? id = some w')
    (elsewhere : w.current.1 ≠ id) : w'.current.1 = w.current.1 := by
  obtain ⟨win, selected, shown⟩ := exists_shown_current wf
  obtain ⟨b, there, rfl⟩ := kill?_eq_some_iff.mp killed
  have left : (w.without b id).isLive w.current.1 = true :=
    isLive_without.mpr ⟨elsewhere.symm, isLive_current wf⟩
  have vacated := vacated_of_isLive left
  have stillShown : (w.vacated b id).windowBuffer? win = some w.current.1 := by
    rw [vacated]
    show (w.windows.retarget id _).buffer? win = _
    rw [Windows.buffer?_retarget, ← windowBuffer?, shown, Option.map_some, if_neg elsewhere]
  have stillSelected : (w.vacated b id).windows.selected? = some win := by
    apply Windows.selected?_of_isLive _ (Windows.isLive_of_buffer? stillShown)
    rw [vacated]
    exact ((Windows.selected?_eq_some_iff ..).mp selected).1
  have repaired : (w.vacated b id).ensureSelected = (win, w.vacated b id) := by
    rw [ensureSelected_eq (consistent_vacated wf there) (showsLive_vacated wf there),
      ensureWindow, stillSelected]
  have wf' := (kill?_cases wf killed).1
  rw [repaired] at wf' ⊢
  rw [current_of_shown wf' stillSelected stillShown]

/-- Once a buffer has been killed, another one that is current if it is alive still is.  It
cannot have come alive through the killing, since the scratch buffer gets a new number. -/
theorem current_kill?_getD (wf : w.WellFormed) {other : Nat} (elsewhere : other ≠ id)
    (old : other < w.nextId) (back : w.isLive other = true → w.current.1 = other)
    (live : ((w.kill? id).getD w).isLive other = true) :
    ((w.kill? id).getD w).current.1 = other := by
  cases killed : w.kill? id with
  | none =>
      rw [killed] at live
      exact back live
  | some w' =>
      rw [killed] at live
      rcases (kill?_cases wf killed).2.live_before live with before | new
      · have current := back before
        rw [← current] at elsewhere
        exact (current_kill? wf killed elsewhere).trans current
      · exact absurd old (Nat.not_lt_of_le new)

end EditorLisp.Workspace
