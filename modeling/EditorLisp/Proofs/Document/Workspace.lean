import EditorLisp.Document.Windows
import EditorLisp.Document.Workspace
import EditorLisp.Proofs.Document.Buffer
import EditorLisp.Proofs.Table
import Mathlib.Data.List.Nodup

/-!
# Well-formed workspaces

A workspace is four tables and two counters that have to agree: every buffer is stored
under its number and found under its name and no other, points lie in their texts, the
counters are ahead of all numbers in use, every window shows a live buffer and the selected
window is open.  `WellFormed` says so, and every operation on buffers and windows keeps it.

`Follows` is what any change of a workspace has in common, edits of texts included: the
counters do not go back, so a number whose buffer is gone stays unused.  `Rearranges` adds
that no text, point or variable of a buffer has changed, only perhaps its name.
-/

namespace EditorLisp.Windows

/-! ## What windows show

What each operation on windows does to the buffers that they show, to the selection and to
the number of the next window. -/

theorem isLive_iff (w : Windows) (win : Nat) :
    w.isLive win = true ↔ ∃ buffer, w.buffer? win = some buffer :=
  Table.contains_iff w.shown win

theorem isLive_of_buffer? {w : Windows} {win buffer : Nat} (h : w.buffer? win = some buffer) :
    w.isLive win = true :=
  (isLive_iff w win).mpr ⟨buffer, h⟩

theorem selected?_eq_some_iff (w : Windows) (win : Nat) :
    w.selected? = some win ↔ w.selection = some win ∧ w.isLive win = true := by
  simp [selected?, Option.filter_eq_some_iff]

theorem selected?_of_isLive {w : Windows} {win : Nat} (selected : w.selection = some win)
    (live : w.isLive win = true) : w.selected? = some win :=
  (selected?_eq_some_iff w win).mpr ⟨selected, live⟩

theorem isLive_of_selected? {w : Windows} {win : Nat} (h : w.selected? = some win) :
    w.isLive win = true :=
  ((selected?_eq_some_iff w win).mp h).2

theorem isLive_of_first? {w : Windows} {win : Nat} (h : w.first? = some win) :
    w.isLive win = true :=
  (Table.mem_keys_iff _ _).mp (List.mem_of_head? h)

theorem isLive_eq_false_of_first?_eq_none {w : Windows} (h : w.first? = none) (win : Nat) :
    w.isLive win = false := by
  have nothing : w.shown.keys = [] := List.head?_eq_none_iff.mp h
  rw [Bool.eq_false_iff]
  intro live
  have listed := (Table.mem_keys_iff _ _).mpr live
  rw [nothing] at listed
  exact List.not_mem_nil listed

/-! ## Opening and closing -/

@[simp]
theorem buffer?_create (w : Windows) (buffer win : Nat) :
    (w.create buffer).2.buffer? win = if w.nextId = win then some buffer else w.buffer? win :=
  Table.get?_insert ..

@[simp]
theorem buffer?_createWithId (w : Windows) (id buffer win : Nat) :
    (w.createWithId id buffer).buffer? win = if id = win then some buffer else w.buffer? win :=
  Table.get?_insert ..

theorem nextId_le_createWithId (w : Windows) (id buffer : Nat) :
    w.nextId ≤ (w.createWithId id buffer).nextId ∧ id < (w.createWithId id buffer).nextId := by
  unfold createWithId
  split <;> constructor <;> simp only <;> omega

@[simp]
theorem buffer?_delete (w : Windows) (id win : Nat) :
    (w.delete id).buffer? win = if id = win then none else w.buffer? win :=
  Table.get?_erase ..

theorem buffer?_foldl_delete (ids : List Nat) (w : Windows) (win : Nat) :
    (ids.foldl delete w).buffer? win = if win ∈ ids then none else w.buffer? win := by
  induction ids generalizing w with
  | nil => simp
  | cons id rest ih =>
      rw [List.foldl_cons, ih, buffer?_delete]
      by_cases later : win ∈ rest
      · rw [if_pos later, if_pos (List.mem_cons_of_mem _ later)]
      · by_cases here : id = win
        · rw [if_neg later, if_pos here, if_pos (here ▸ List.mem_cons_self ..)]
        · have absent : ¬ win ∈ id :: rest := by
            rw [List.mem_cons]
            exact fun h => h.elim (fun same => here same.symm) later
          rw [if_neg later, if_neg here, if_neg absent]

@[simp]
theorem nextId_foldl_delete (ids : List Nat) (w : Windows) :
    (ids.foldl delete w).nextId = w.nextId := by
  induction ids generalizing w with
  | nil => rfl
  | cons id rest ih => exact ih (w.delete id)

/-- Closing all windows leaves none. -/
theorem buffer?_deleteAll (w : Windows) (win : Nat) :
    (w.ids.foldl delete w).buffer? win = none := by
  rw [buffer?_foldl_delete]
  split
  · rfl
  next closed =>
      rw [← Option.not_isSome_iff_eq_none]
      exact fun live => closed ((Table.mem_keys_iff _ _).mpr live)

/-! ## Showing other buffers -/

@[simp]
theorem buffer?_retarget (w : Windows) (source target win : Nat) :
    (w.retarget source target).buffer? win =
      (w.buffer? win).map fun b => if b = source then target else b :=
  Table.get?_mapValues ..

theorem selected?_congr {w w' : Windows} (selection : w'.selection = w.selection)
    (live : ∀ win, w'.isLive win = w.isLive win) : w'.selected? = w.selected? := by
  unfold selected?
  rw [selection]
  congr 1
  funext win
  exact live win

theorem select?_eq_some_iff (w w' : Windows) (id : Nat) :
    w.select? id = some w' ↔ w.isLive id = true ∧ w' = { w with selection := some id } := by
  unfold select?
  split
  next live => simp [live, eq_comm]
  next dead => simp [dead]

end EditorLisp.Windows

namespace EditorLisp.Workspace

/-! ## Agreement of the tables -/

/-- The tables of buffers and names and the counters agree. -/
structure Consistent (w : Workspace) : Prop where
  /-- A buffer is stored under its number. -/
  id_eq : ∀ {id b}, w.buffer? id = some b → b.id = id
  /-- The table of names is the inverse of the table of buffers. -/
  find?_iff : ∀ {name id}, w.find? name = some id ↔ w.bufferName? id = some name
  /-- Points lie in their texts. -/
  point_le : ∀ {id b}, w.buffer? id = some b → b.point ≤ b.size
  /-- The number of the next buffer is free, and so are all after it. -/
  buffer_lt : ∀ {id}, w.isLive id = true → id < w.nextId
  /-- The number of the next window is free, and so are all after it. -/
  window_lt : ∀ {win}, w.windows.isLive win = true → win < w.windows.nextId

/-- Every open window shows a live buffer. -/
def ShowsLive (w : Workspace) : Prop :=
  ∀ ⦃win id⦄, w.windowBuffer? win = some id → w.isLive id = true

/-- The tables agree, windows show live buffers, and the selected window is open. -/
structure WellFormed (w : Workspace) : Prop extends Consistent w where
  shown_live : w.ShowsLive
  selected_live : ∃ win, w.windows.selected? = some win

/-- What any change of a workspace has in common. -/
structure Follows (w w' : Workspace) : Prop where
  nextId_le : w.nextId ≤ w'.nextId
  windowId_le : w.windows.nextId ≤ w'.windows.nextId
  /-- A live buffer was there before or has a number that was not yet given out. -/
  live_before : ∀ {id}, w'.isLive id = true → w.isLive id = true ∨ w.nextId ≤ id

/-- A change that leaves the buffers that stay as they are, perhaps under another name. -/
structure Rearranges (w w' : Workspace) : Prop extends Follows w w' where
  same : ∀ {id b b'}, id < w.nextId → w.buffer? id = some b → w'.buffer? id = some b' →
    b' = { b with name := b'.name }

theorem isLive_iff (w : Workspace) (id : Nat) :
    w.isLive id = true ↔ ∃ b, w.buffer? id = some b :=
  Table.contains_iff w.buffers id

theorem isLive_of_buffer? {w : Workspace} {id : Nat} {b : Buffer} (h : w.buffer? id = some b) :
    w.isLive id = true :=
  (isLive_iff w id).mpr ⟨b, h⟩

theorem bufferName?_eq_some_iff (w : Workspace) (id : Nat) (name : String) :
    w.bufferName? id = some name ↔ ∃ b, w.buffer? id = some b ∧ b.name = name :=
  Option.map_eq_some_iff

namespace Follows

variable {w w' w'' : Workspace}

@[refl]
theorem refl (w : Workspace) : Follows w w :=
  ⟨Nat.le_refl _, Nat.le_refl _, Or.inl⟩

theorem trans (first : Follows w w') (second : Follows w' w'') : Follows w w'' where
  nextId_le := Nat.le_trans first.nextId_le second.nextId_le
  windowId_le := Nat.le_trans first.windowId_le second.windowId_le
  live_before live := by
    rcases second.live_before live with there | new
    · exact first.live_before there
    · exact Or.inr (Nat.le_trans first.nextId_le new)

end Follows

namespace Rearranges

variable {w w' w'' : Workspace}

@[refl]
theorem refl (w : Workspace) : Rearranges w w where
  toFollows := Follows.refl w
  same _ before after := by
    rw [before] at after
    cases after
    rfl

theorem trans (first : Rearranges w w') (second : Rearranges w' w'') : Rearranges w w'' where
  toFollows := first.toFollows.trans second.toFollows
  same {id b b''} old before after := by
    have older : id < w'.nextId := Nat.lt_of_lt_of_le old first.nextId_le
    -- A buffer made anew under an old number would be new to the counter.
    rcases second.live_before (isLive_of_buffer? after) with there | new
    · obtain ⟨b', between⟩ := (isLive_iff w' id).mp there
      rw [second.same older between after, first.same old before between]
    · omega

end Rearranges

/-! ## Changing the windows only -/

section Windows

variable {w : Workspace} (windows : Windows)

variable {windows} in
theorem Consistent.withWindows (c : w.Consistent)
    (lt : ∀ {win}, windows.isLive win = true → win < windows.nextId) :
    Consistent { w with windows } :=
  ⟨c.id_eq, c.find?_iff, c.point_le, c.buffer_lt, lt⟩

variable (w) in
theorem rearranges_withWindows (le : w.windows.nextId ≤ windows.nextId) :
    w.Rearranges { w with windows } where
  nextId_le := Nat.le_refl _
  windowId_le := le
  live_before := Or.inl
  same := (Rearranges.refl w).same

end Windows

/-! ## Making buffers -/

section Making

variable (w : Workspace) (name : String)

theorem buffer?_insertNew (id : Nat) :
    (w.insertNew name).2.buffer? id =
      if w.nextId = id then some { id := w.nextId, name } else w.buffer? id :=
  Table.get?_insert ..

theorem find?_insertNew (other : String) :
    (w.insertNew name).2.find? other = if name = other then some w.nextId else w.find? other :=
  Table.get?_insert ..

theorem isLive_insertNew (id : Nat) :
    (w.insertNew name).2.isLive id = (decide (w.nextId = id) || w.isLive id) :=
  Table.contains_insert ..

variable {w name}

theorem Consistent.buffer?_nextId (c : w.Consistent) : w.buffer? w.nextId = none := by
  rw [Option.eq_none_iff_forall_ne_some]
  intro b there
  exact Nat.lt_irrefl _ (c.buffer_lt (isLive_of_buffer? there))

theorem Consistent.bufferName?_injective (c : w.Consistent) {id id' : Nat}
    (first : w.bufferName? id = some name) (second : w.bufferName? id' = some name) : id = id' := by
  have same := (c.find?_iff.mpr first).symm.trans (c.find?_iff.mpr second)
  exact Option.some.inj same

/-- No buffer has a free name. -/
theorem Consistent.bufferName?_ne_of_free (c : w.Consistent) (free : w.find? name = none)
    (id : Nat) : w.bufferName? id ≠ some name := by
  intro named
  rw [c.find?_iff.mpr named] at free
  cases free

theorem consistent_insertNew (c : w.Consistent) (free : w.find? name = none) :
    (w.insertNew name).2.Consistent where
  id_eq {id b} found := by
    rw [buffer?_insertNew] at found
    split at found
    next new => cases found; exact new
    next => exact c.id_eq found
  find?_iff {other id} := by
    rw [find?_insertNew, bufferName?, buffer?_insertNew]
    by_cases new : w.nextId = id
    · subst new
      rw [if_pos rfl, Option.map_some]
      by_cases here : name = other
      · simp [here]
      · rw [if_neg here]
        have dead : w.bufferName? w.nextId = none := by rw [bufferName?, c.buffer?_nextId]; rfl
        simp only [c.find?_iff, dead, Option.some.injEq, here, reduceCtorEq]
    · rw [if_neg new]
      by_cases here : name = other
      · subst here
        have unnamed : ¬ (w.buffer? id).map Buffer.name = some name :=
          c.bufferName?_ne_of_free free id
        simp only [if_true, Option.some.injEq, new, unnamed]
      · rw [if_neg here]
        exact c.find?_iff
  point_le {id b} found := by
    rw [buffer?_insertNew] at found
    split at found
    next => cases found; exact Nat.zero_le _
    next => exact c.point_le found
  buffer_lt {id} live := by
    rw [isLive_insertNew, Bool.or_eq_true, decide_eq_true_eq] at live
    have step : (w.insertNew name).2.nextId = w.nextId + 1 := rfl
    rcases live with new | old
    · omega
    · have := c.buffer_lt old
      omega
  window_lt := c.window_lt

theorem rearranges_insertNew : w.Rearranges (w.insertNew name).2 where
  nextId_le := Nat.le_succ _
  windowId_le := Nat.le_refl _
  live_before {id} live := by
    rw [isLive_insertNew, Bool.or_eq_true, decide_eq_true_eq] at live
    exact live.symm.imp_right fun new => Nat.le_of_eq new
  same {id b b'} old before after := by
    rw [buffer?_insertNew, if_neg (by omega), before] at after
    cases after
    rfl

theorem consistent_getOrCreate (c : w.Consistent) : (w.getOrCreate name).2.Consistent := by
  unfold getOrCreate
  split
  next => exact c
  next free => exact consistent_insertNew c free

theorem rearranges_getOrCreate : w.Rearranges (w.getOrCreate name).2 := by
  unfold getOrCreate
  split
  next => exact Rearranges.refl w
  next => exact rearranges_insertNew

variable (w name) in
@[simp]
theorem windows_getOrCreate : (w.getOrCreate name).2.windows = w.windows := by
  unfold getOrCreate
  split <;> rfl

theorem isLive_getOrCreate (c : w.Consistent) :
    (w.getOrCreate name).2.isLive (w.getOrCreate name).1 = true := by
  unfold getOrCreate
  split
  next id found =>
      obtain ⟨b, there, -⟩ := (bufferName?_eq_some_iff w id name).mp (c.find?_iff.mp found)
      exact isLive_of_buffer? there
  next => exact (isLive_insertNew w name _).trans (by simp [insertNew])

/-- Making a buffer leaves those that are there. -/
theorem buffer?_getOrCreate (c : w.Consistent) {id : Nat} {b : Buffer}
    (there : w.buffer? id = some b) : (w.getOrCreate name).2.buffer? id = some b := by
  unfold getOrCreate
  split
  next => exact there
  next =>
      have old := c.buffer_lt (isLive_of_buffer? there)
      rw [buffer?_insertNew, if_neg (by omega), there]

theorem isLive_getOrCreate_of_isLive (c : w.Consistent) {id : Nat} (live : w.isLive id = true) :
    (w.getOrCreate name).2.isLive id = true := by
  obtain ⟨b, there⟩ := (isLive_iff w id).mp live
  exact isLive_of_buffer? (buffer?_getOrCreate c there)

theorem showsLive_getOrCreate (c : w.Consistent) (shown : w.ShowsLive) :
    (w.getOrCreate name).2.ShowsLive := by
  intro win id there
  rw [windowBuffer?, windows_getOrCreate] at there
  exact isLive_getOrCreate_of_isLive c (shown there)

theorem wellFormed_getOrCreate (wf : w.WellFormed) : (w.getOrCreate name).2.WellFormed where
  toConsistent := consistent_getOrCreate wf.toConsistent
  shown_live := showsLive_getOrCreate wf.toConsistent wf.shown_live
  selected_live := by
    rw [windows_getOrCreate]
    exact wf.selected_live

end Making

/-! ## Free names -/

/-- Different numbers make different names. -/
theorem numberedName_injective (base : String) : Function.Injective (numberedName base) := by
  intro m n same
  unfold numberedName at same
  rw [String.append_left_inj, String.append_right_inj] at same
  have digits : Nat.toDigits 10 m = Nat.toDigits 10 n := by
    rw [← Nat.toList_repr, ← Nat.toList_repr]
    exact congrArg String.toList same
  rw [← @Nat.ofDigitChars_ten_toDigits m, digits, Nat.ofDigitChars_ten_toDigits]

/-- A search for a free name that fails has met as many taken names as it made attempts. -/
theorem contains_of_contains_freeName (w : Workspace) (base : String) (fuel n : Nat)
    (taken : w.byName.contains (w.freeName base fuel n) = true) :
    ∀ k < fuel, w.byName.contains (numberedName base (n + k)) = true := by
  induction fuel generalizing n with
  | zero => exact fun k small => absurd small (Nat.not_lt_zero k)
  | succ fuel ih =>
      rw [freeName] at taken
      split at taken
      next here =>
          intro k small
          cases k with
          | zero => exact here
          | succ k =>
              have later := ih (n + 1) taken k (by omega)
              rwa [Nat.add_right_comm] at later
      next free => exact absurd taken free

/-- One of more candidates than there are names is free. -/
theorem find?_freeName (w : Workspace) (base : String) (n : Nat) :
    w.find? (w.freeName base (w.byName.size + 1) n) = none := by
  rw [find?, Table.get?_eq_none_iff, Bool.eq_false_iff]
  intro taken
  let candidates := (List.range (w.byName.size + 1)).map fun k => numberedName base (n + k)
  have distinct : candidates.Nodup := by
    refine List.Nodup.map ?_ List.nodup_range
    intro k k' same
    exact Nat.add_left_cancel (numberedName_injective base same)
  have named : candidates ⊆ w.byName.keys := by
    intro candidate member
    obtain ⟨k, small, rfl⟩ := List.mem_map.mp member
    exact (Table.mem_keys_iff _ _).mpr
      (contains_of_contains_freeName w base _ n taken k (List.mem_range.mp small))
  have tooMany := distinct.length_le_of_subset named
  have count : w.byName.keys.length = w.byName.size := List.length_map ..
  rw [count, List.length_map, List.length_range] at tooMany
  omega

theorem find?_newName (w : Workspace) (base : String) : w.find? (w.newName base) = none := by
  unfold newName
  split
  next => exact find?_freeName w base 2
  next free => exact (Table.get?_eq_none_iff _ _).mpr (Bool.eq_false_iff.mpr free)

section Names

variable {w w' : Workspace}

theorem rearranges_generate (w : Workspace) (base : String) :
    w.Rearranges (w.generate base).2 :=
  rearranges_insertNew

theorem wellFormed_insertNew {name : String} (wf : w.WellFormed) (free : w.find? name = none) :
    (w.insertNew name).2.WellFormed where
  toConsistent := consistent_insertNew wf.toConsistent free
  shown_live {win id} there := by
    rw [isLive_insertNew, wf.shown_live there, Bool.or_true]
  selected_live := wf.selected_live

theorem wellFormed_generate (wf : w.WellFormed) (base : String) :
    (w.generate base).2.WellFormed :=
  wellFormed_insertNew wf (find?_newName w _)

/-! ## Renaming -/

/-- Renaming either finds the buffer under the name already, or moves it there from its old
name. -/
theorem rename?_cases {id : Nat} {name : String} (renamed : w.rename? id name = some w') :
    w' = w ∨
      ∃ b, w.find? name = none ∧ w.buffer? id = some b ∧
        w' = { w with
          buffers := w.buffers.insert id { b with name }
          byName := (w.byName.erase b.name).insert name id } := by
  unfold rename? at renamed
  split at renamed
  next holder found =>
      split at renamed
      · exact Or.inl (Option.some.inj renamed).symm
      · cases renamed
  next free =>
      obtain ⟨b, there, rfl⟩ := Option.map_eq_some_iff.mp renamed
      exact Or.inr ⟨b, free, there, rfl⟩

section Moved

variable {id : Nat} {name : String} {b : Buffer} {w : Workspace}

theorem buffer?_renamed (other : Nat) :
    ({ w with
      buffers := w.buffers.insert id { b with name }
      byName := (w.byName.erase b.name).insert name id } : Workspace).buffer? other =
      if id = other then some { b with name } else w.buffer? other :=
  Table.get?_insert ..

theorem find?_renamed (other : String) :
    ({ w with
      buffers := w.buffers.insert id { b with name }
      byName := (w.byName.erase b.name).insert name id } : Workspace).find? other =
      if name = other then some id else if b.name = other then none else w.find? other := by
  rw [find?, Table.get?_insert, Table.get?_erase]
  rfl

/-- A buffer that takes a free name gives its old one back: the names are still the inverse of
the buffers. -/
theorem find?_iff_renamed (c : w.Consistent) (free : w.find? name = none)
    (there : w.buffer? id = some b) {other : String} {id' : Nat} :
    ({ w with
      buffers := w.buffers.insert id { b with name }
      byName := (w.byName.erase b.name).insert name id } : Workspace).find? other = some id' ↔
    ({ w with
      buffers := w.buffers.insert id { b with name }
      byName := (w.byName.erase b.name).insert name id } : Workspace).bufferName? id' =
        some other := by
  have named : w.bufferName? id = some b.name := by rw [bufferName?, there, Option.map_some]
  rw [find?_renamed, bufferName?, buffer?_renamed]
  by_cases here : id = id'
  · subst here
    rw [if_pos rfl, Option.map_some, Option.some.injEq]
    by_cases new : name = other
    · simp [new]
    · rw [if_neg new]
      by_cases left : b.name = other
      · simp [left, new]
      · rw [if_neg left, c.find?_iff, named]
        simp [left, new]
  · rw [if_neg here]
    by_cases new : name = other
    · subst new
      have unnamed := c.bufferName?_ne_of_free free id'
      simpa [here, bufferName?] using unnamed
    · rw [if_neg new]
      by_cases left : b.name = other
      · subst left
        have unnamed : ¬ w.bufferName? id' = some b.name := fun taken =>
          here (c.bufferName?_injective named taken)
        simpa [bufferName?] using unnamed
      · rw [if_neg left]
        exact c.find?_iff

end Moved

theorem isLive_rename? {id : Nat} {name : String} (renamed : w.rename? id name = some w')
    (other : Nat) : w'.isLive other = w.isLive other := by
  rcases rename?_cases renamed with rfl | ⟨b, -, there, rfl⟩
  · rfl
  · refine (Table.contains_insert ..).trans ?_
    by_cases here : id = other
    · subst here
      rw [decide_eq_true rfl, Bool.true_or]
      exact (isLive_of_buffer? there).symm
    · rw [decide_eq_false here, Bool.false_or]
      rfl

theorem windows_rename? {id : Nat} {name : String} (renamed : w.rename? id name = some w') :
    w'.windows = w.windows := by
  rcases rename?_cases renamed with rfl | ⟨b, -, -, rfl⟩ <;> rfl

theorem rearranges_rename? {id : Nat} {name : String} (renamed : w.rename? id name = some w') :
    w.Rearranges w' where
  nextId_le := by rcases rename?_cases renamed with rfl | ⟨b, -, -, rfl⟩ <;> exact Nat.le_refl _
  windowId_le := Nat.le_of_eq (congrArg Windows.nextId (windows_rename? renamed)).symm
  live_before live := Or.inl (by rwa [isLive_rename? renamed] at live)
  same {other b b'} old before after := by
    rcases rename?_cases renamed with rfl | ⟨found, -, there, rfl⟩
    · exact (Rearranges.refl _).same old before after
    · rw [buffer?_renamed] at after
      split at after
      next here =>
          subst here
          rw [there] at before
          cases before
          cases after
          rfl
      next =>
          rw [before] at after
          cases after
          rfl

theorem consistent_rename? {id : Nat} {name : String} (c : w.Consistent)
    (renamed : w.rename? id name = some w') : w'.Consistent := by
  rcases rename?_cases renamed with rfl | ⟨b, free, there, rfl⟩
  · exact c
  · refine ⟨?_, find?_iff_renamed c free there, ?_, ?_, c.window_lt⟩
    · intro other b' found
      rw [buffer?_renamed] at found
      split at found
      next here => cases found; exact (c.id_eq there).trans here
      next => exact c.id_eq found
    · intro other b' found
      rw [buffer?_renamed] at found
      split at found
      next =>
          have inside := c.point_le there
          cases found
          exact inside
      next => exact c.point_le found
    · intro other live
      rw [isLive_rename? renamed] at live
      exact c.buffer_lt live

theorem wellFormed_rename? {id : Nat} {name : String} (wf : w.WellFormed)
    (renamed : w.rename? id name = some w') : w'.WellFormed where
  toConsistent := consistent_rename? wf.toConsistent renamed
  shown_live {win other} there := by
    rw [windowBuffer?, windows_rename? renamed] at there
    rw [isLive_rename? renamed]
    exact wf.shown_live there
  selected_live := by
    rw [windows_rename? renamed]
    exact wf.selected_live

end Names

/-! ## Editing buffers -/

section Editing

variable {w : Workspace} {id : Nat} {f : Buffer → Buffer}

theorem buffer?_modifyBuffer (other : Nat) :
    (w.modifyBuffer id f).buffer? other =
      if id = other then (w.buffer? other).map f else w.buffer? other :=
  Table.get?_modify ..

theorem isLive_modifyBuffer (other : Nat) : (w.modifyBuffer id f).isLive other = w.isLive other :=
  Table.contains_modify ..

theorem follows_modifyBuffer : w.Follows (w.modifyBuffer id f) where
  nextId_le := Nat.le_refl _
  windowId_le := Nat.le_refl _
  live_before live := Or.inl ((isLive_modifyBuffer _).symm.trans live)

theorem consistent_modifyBuffer (c : w.Consistent)
    (edited : ∀ b, w.buffer? id = some b → b.Edited (f b)) : (w.modifyBuffer id f).Consistent where
  id_eq {other b'} found := by
    rw [buffer?_modifyBuffer] at found
    split at found
    next here =>
        subst here
        obtain ⟨b, there, rfl⟩ := Option.map_eq_some_iff.mp found
        exact (edited b there).id_eq.trans (c.id_eq there)
    next => exact c.id_eq found
  find?_iff {name other} := by
    have sameName : (w.modifyBuffer id f).bufferName? other = w.bufferName? other := by
      rw [bufferName?, bufferName?, buffer?_modifyBuffer]
      split
      next here =>
          subst here
          cases there : w.buffer? id with
          | none => rfl
          | some b => exact congrArg some (edited b there).name_eq
      next => rfl
    rw [sameName]
    exact c.find?_iff
  point_le {other b'} found := by
    rw [buffer?_modifyBuffer] at found
    split at found
    next here =>
        subst here
        obtain ⟨b, there, rfl⟩ := Option.map_eq_some_iff.mp found
        exact (edited b there).point_le (c.point_le there)
    next => exact c.point_le found
  buffer_lt live := c.buffer_lt ((isLive_modifyBuffer _).symm.trans live)
  window_lt := c.window_lt

theorem wellFormed_modifyBuffer (wf : w.WellFormed)
    (edited : ∀ b, w.buffer? id = some b → b.Edited (f b)) : (w.modifyBuffer id f).WellFormed where
  toConsistent := consistent_modifyBuffer wf.toConsistent edited
  shown_live {_ _} there := (isLive_modifyBuffer _).trans (wf.shown_live there)
  selected_live := wf.selected_live

end Editing

/-! ## The selection -/

section Selection

variable {w w' : Workspace}

/-- The window selected by a repair of the selection. -/
theorem ensureWindow_cases (w : Workspace) :
    (∃ win, w.windows.selected? = some win ∧ w.ensureWindow = (win, w)) ∨
      (∃ win, w.windows.isLive win = true ∧
        w.ensureWindow = (win, { w with windows := { w.windows with selection := some win } })) ∨
      ((∀ win, w.windows.isLive win = false) ∧
        w.ensureWindow = (w.windows.nextId,
          { (w.getOrCreate scratchName).2 with
            windows := { (w.windows.create (w.getOrCreate scratchName).1).2 with
              selection := some w.windows.nextId } })) := by
  unfold ensureWindow
  cases selected : w.windows.selected? with
  | some win => exact Or.inl ⟨win, rfl, rfl⟩
  | none =>
      cases first : w.windows.first? with
      | some win => exact Or.inr (Or.inl ⟨win, Windows.isLive_of_first? first, rfl⟩)
      | none =>
          refine Or.inr (Or.inr ⟨Windows.isLive_eq_false_of_first?_eq_none first, ?_⟩)
          simp only [windows_getOrCreate]
          rfl

theorem rearranges_ensureWindow (w : Workspace) : w.Rearranges w.ensureWindow.2 := by
  rcases ensureWindow_cases w with ⟨win, -, eq⟩ | ⟨win, -, eq⟩ | ⟨-, eq⟩
  · rw [eq]
  · rw [eq]
    exact rearranges_withWindows _ _ (Nat.le_refl _)
  · rw [eq]
    refine rearranges_getOrCreate.trans (rearranges_withWindows _ _ ?_)
    rw [windows_getOrCreate]
    exact Nat.le_succ _

/-- A repair of the selection leaves the buffers that are there. -/
theorem buffer?_ensureWindow (c : w.Consistent) {id : Nat} {b : Buffer}
    (there : w.buffer? id = some b) : w.ensureWindow.2.buffer? id = some b := by
  rcases ensureWindow_cases w with ⟨win, -, eq⟩ | ⟨win, -, eq⟩ | ⟨-, eq⟩ <;> rw [eq]
  · exact there
  · exact there
  · exact buffer?_getOrCreate c there

/-- A repair of the selection leaves the windows that are there as they are. -/
theorem windowBuffer?_ensureWindow {win id : Nat} (there : w.windowBuffer? win = some id) :
    w.ensureWindow.2.windowBuffer? win = some id := by
  rcases ensureWindow_cases w with ⟨win, -, eq⟩ | ⟨win, -, eq⟩ | ⟨closed, -⟩
  · rw [eq]
    exact there
  · rw [eq]
    exact there
  · have live := Windows.isLive_of_buffer? there
    rw [closed win] at live
    cases live

theorem wellFormed_ensureWindow (c : w.Consistent) (shown : w.ShowsLive) :
    w.ensureWindow.2.WellFormed ∧
      w.ensureWindow.2.windows.selected? = some w.ensureWindow.1 := by
  rcases ensureWindow_cases w with ⟨win, selected, eq⟩ | ⟨win, live, eq⟩ | ⟨closed, eq⟩ <;> rw [eq]
  · exact ⟨⟨c, shown, win, selected⟩, selected⟩
  · have selected := Windows.selected?_of_isLive
      (w := { w.windows with selection := some win }) rfl live
    exact ⟨⟨c.withWindows c.window_lt, shown, win, selected⟩, selected⟩
  · let windows : Windows := { (w.windows.create (w.getOrCreate scratchName).1).2 with
      selection := some w.windows.nextId }
    have shownBy (win : Nat) : windows.buffer? win =
        if w.windows.nextId = win then some (w.getOrCreate scratchName).1
        else w.windows.buffer? win :=
      Windows.buffer?_create ..
    have selected : windows.selected? = some w.windows.nextId :=
      Windows.selected?_of_isLive rfl (Windows.isLive_of_buffer? (by rw [shownBy, if_pos rfl]))
    refine ⟨⟨(consistent_getOrCreate c).withWindows ?_, ?_, w.windows.nextId, selected⟩, selected⟩
    · intro win live
      obtain ⟨id, there⟩ := (Windows.isLive_iff windows win).mp live
      have step : windows.nextId = w.windows.nextId + 1 := rfl
      rw [shownBy] at there
      split at there
      next new =>
          change win < windows.nextId
          omega
      next =>
          have := c.window_lt (Windows.isLive_of_buffer? there)
          change win < windows.nextId
          omega
    · intro win id there
      have there : windows.buffer? win = some id := there
      rw [shownBy] at there
      split at there
      next => cases there; exact isLive_getOrCreate c
      next => exact isLive_getOrCreate_of_isLive c (shown there)

/-- Where windows show live buffers, only the window can be missing. -/
theorem ensureSelected_eq (c : w.Consistent) (shown : w.ShowsLive) :
    w.ensureSelected = w.ensureWindow := by
  obtain ⟨wf, selected⟩ := wellFormed_ensureWindow c shown
  obtain ⟨id, there⟩ := (Windows.isLive_iff _ _).mp (Windows.isLive_of_selected? selected)
  have live : (w.ensureWindow.2.windows.buffer? w.ensureWindow.1).any w.ensureWindow.2.isLive =
      true := by
    rw [there]
    exact wf.shown_live there
  unfold ensureSelected
  exact if_pos live

theorem wellFormed_ensureSelected (c : w.Consistent) (shown : w.ShowsLive) :
    w.ensureSelected.2.WellFormed := by
  rw [ensureSelected_eq c shown]
  exact (wellFormed_ensureWindow c shown).1

/-- There is nothing to repair in a well-formed workspace. -/
theorem ensureSelected_of_wellFormed (wf : w.WellFormed) :
    ∃ win, w.windows.selected? = some win ∧ w.ensureSelected = (win, w) := by
  obtain ⟨win, selected⟩ := wf.selected_live
  refine ⟨win, selected, ?_⟩
  rw [ensureSelected_eq wf.toConsistent wf.shown_live, ensureWindow, selected]

/-- The current buffer of a well-formed workspace is alive. -/
theorem current_of_wellFormed (wf : w.WellFormed) :
    ∃ win id b, w.windows.selected? = some win ∧ w.windowBuffer? win = some id ∧
      w.buffer? id = some b ∧ w.current = (id, w) := by
  obtain ⟨win, selected, repaired⟩ := ensureSelected_of_wellFormed wf
  obtain ⟨id, there⟩ := (Windows.isLive_iff _ _).mp (Windows.isLive_of_selected? selected)
  obtain ⟨b, found⟩ := (isLive_iff w id).mp (wf.shown_live there)
  refine ⟨win, id, b, selected, there, found, ?_⟩
  simp only [current, repaired, there]

theorem consistent_empty : Consistent {} where
  id_eq found := by cases found
  find?_iff := ⟨(by cases ·), (by cases ·)⟩
  point_le found := by cases found
  buffer_lt live := by cases live
  window_lt live := by cases live

/-- A new workspace is well formed. -/
theorem wellFormed_initial : WellFormed .initial :=
  wellFormed_ensureSelected consistent_empty fun _ _ there => by cases there

end Selection

end EditorLisp.Workspace
