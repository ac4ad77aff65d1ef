import EditorLisp.Proofs.Evaluation.Functions

/-!
# Values of variables

What a variable evaluates to after a frame has bound it and after it has been bound
dynamically.  A dynamic binding goes into whichever value is in force, the one of the
current buffer or the global one, and look-up goes to the same place; that holds only
because a buffer is stored under its own number, which a workspace in order sees to.
-/

namespace EditorLisp

/-- The value that the last of some bindings gives a name. -/
def lastBound? (bindings : List (String × Value)) (name : String) : Option Value :=
  bindings.reverse.lookup name

theorem lastBound?_concat (bindings : List (String × Value)) (name : String) (value : Value) :
    lastBound? (bindings ++ [(name, value)]) name = some value := by
  rw [lastBound?, List.reverse_concat, List.lookup_cons_self]

theorem lastBound?_cons (binding : String × Value) (bindings : List (String × Value))
    (name : String) :
    lastBound? (binding :: bindings) name =
      (lastBound? bindings name).or (if binding.1 = name then some binding.2 else none) := by
  obtain ⟨other, value⟩ := binding
  rw [lastBound?, List.reverse_cons, List.lookup_append]
  congr 1
  by_cases same : other = name
  · subst same
    rw [if_pos rfl, List.lookup_cons_self]
  · rw [if_neg same, List.lookup_cons, beq_eq_false_iff_ne.mpr (Ne.symm same)]
    rfl

/-- Later bindings of other names do not matter. -/
theorem lastBound?_append_of_notMem {more : List (String × Value)} {name : String}
    (others : name ∉ more.map Prod.fst) (bindings : List (String × Value)) :
    lastBound? (bindings ++ more) name = lastBound? bindings name := by
  have absent : more.reverse.lookup name = none := by
    refine List.lookup_eq_none_iff.mpr fun binding member => bne_iff_ne.mpr fun same => others ?_
    rw [same]
    exact List.mem_map_of_mem (List.mem_reverse.mp member)
  rw [lastBound?, List.reverse_append, List.lookup_append, absent, Option.none_or]
  rfl

/-- A name that is bound once has the value of its binding. -/
theorem lastBound?_of_mem {bindings : List (String × Value)} {name : String} {value : Value}
    (member : (name, value) ∈ bindings) (once : (bindings.map Prod.fst).Nodup) :
    lastBound? bindings name = some value := by
  obtain ⟨before, after, rfl⟩ := List.append_of_mem member
  rw [List.map_append, List.map_cons, List.nodup_append, List.nodup_cons] at once
  have absent : name ∉ after.map Prod.fst := once.2.1.1
  rw [← List.singleton_append, ← List.append_assoc, lastBound?_append_of_notMem absent]
  exact lastBound?_concat before name value

/-! ## Frames -/

namespace Store

variable {st : Store} {i : Nat} {name : String} {value : Value}

/-- The value that a frame itself gives a name. -/
def varIn? (st : Store) (i : Nat) (name : String) : Option Value :=
  st.frames[i]?.bind (·.vars.get? name)

/-- The frame that binds a name is found from itself, whatever lies around it. -/
theorem lookupIn?_of_varIn? (bound : st.varIn? i name = some value) :
    st.lookupIn? i name = some value := by
  obtain ⟨f, there, bound⟩ := Option.bind_eq_some_iff.mp bound
  unfold lookupIn? binder? binderFrom
  rw [there]
  simp only [bound, Option.map_some]

/-- A new frame binds a name to the last of the values that it was given for it. -/
theorem lookupIn?_childFrameWith {bindings : List (String × Value)} (parent : Nat)
    (bound : lastBound? bindings name = some value) :
    (st.childFrameWith parent bindings).2.lookupIn? (st.childFrameWith parent bindings).1 name =
      some value := by
  refine lookupIn?_of_varIn? (Option.bind_eq_some_iff.mpr ⟨_, Array.getElem?_push_size, ?_⟩)
  exact (Table.get?_ofList bindings name).trans bound

/-- Look-up in a frame after a definition in it. -/
theorem varIn?_defineIn (there : i < st.frames.size) (other : String) :
    (st.defineIn i name value).varIn? i other =
      if name = other then some value else st.varIn? i other := by
  unfold varIn? defineIn
  rw [Array.getElem?_modify, if_pos rfl, Array.getElem?_eq_getElem there]
  exact Table.get?_insert ..

theorem lookupIn?_defineIn (there : i < st.frames.size) :
    (st.defineIn i name value).lookupIn? i name = some value :=
  lookupIn?_of_varIn? ((varIn?_defineIn there name).trans (if_pos rfl))

@[simp]
theorem size_frames_defineIn (st : Store) (i : Nat) (name : String) (value : Value) :
    (st.defineIn i name value).frames.size = st.frames.size :=
  Array.size_modify

end Store

/-! ## The current buffer -/

namespace Workspace

theorem current?_eq_bind (w : Workspace) :
    w.current? = (w.windows.selected?.bind w.windows.buffer?).bind w.buffer? := by
  unfold current?
  cases w.windows.selected? <;> rfl

/-- An edit of a buffer shows in the current buffer if it is the same one. -/
theorem current?_modifyBuffer {w : Workspace} (c : w.Consistent) (id : Nat) (f : Buffer → Buffer) :
    (w.modifyBuffer id f).current? = w.current?.map fun b => if b.id = id then f b else b := by
  rw [current?_eq_bind, current?_eq_bind]
  show ((w.windows.selected?.bind w.windows.buffer?).bind (w.modifyBuffer id f).buffer?) = _
  cases w.windows.selected?.bind w.windows.buffer? with
  | none => rfl
  | some shown =>
      rw [Option.bind_some, Option.bind_some, buffer?_modifyBuffer]
      cases there : w.buffer? shown with
      | none => exact ite_self _
      | some b =>
          have own : b.id = shown := c.id_eq there
          by_cases same : id = shown
          · subst same
            rw [if_pos rfl, Option.map_some, Option.map_some, if_pos own]
          · have other : b.id ≠ id := fun h => same (h.symm.trans own)
            rw [if_neg same, Option.map_some, if_neg other]

/-- In a workspace in order there is a current buffer, and asking for it changes nothing. -/
theorem current?_of_wellFormed {w : Workspace} (wf : w.WellFormed) :
    ∃ b, w.current? = some b ∧ w.current = (b.id, w) ∧ w.buffer? b.id = some b := by
  obtain ⟨win, id, b, selected, shown, there, same⟩ := current_of_wellFormed wf
  have own : b.id = id := wf.id_eq there
  subst own
  refine ⟨b, ?_, same, there⟩
  unfold current?
  rw [selected]
  show (w.windowBuffer? win).bind w.buffer? = some b
  rw [shown]
  exact there

end Workspace

/-! ## Values outside of frames -/

namespace Session

variable {s : Session} {name other : String} {value : Value}

/-- The current buffer, if a variable is local in it as things stand. -/
def localIn? (s : Session) (name : String) : Option Buffer :=
  s.workspace.current?.filter (·.locals.contains name)

theorem localIn?_eq_some_iff {b : Buffer} :
    s.localIn? name = some b ↔
      s.workspace.current? = some b ∧ b.locals.contains name = true :=
  Option.filter_eq_some_iff

theorem local?_of_localIn? {b : Buffer} (found : s.localIn? name = some b) :
    ∃ old, b.local? name = some old :=
  (Table.contains_iff _ _).mp (localIn?_eq_some_iff.mp found).2

/-- Outside of frames a variable has the value of the current buffer where it is local, and
the global one otherwise. -/
theorem outerValue?_eq (s : Session) (name : String) :
    s.outerValue? name =
      match s.localIn? name with
      | some b => b.local? name
      | none => s.globals.get? name := by
  unfold outerValue? localIn?
  cases s.workspace.current? with
  | none => rfl
  | some b =>
      cases found : b.local? name with
      | some old =>
          have isLocal : b.locals.contains name = true := (Table.contains_iff _ _).mpr ⟨old, found⟩
          simp [found, isLocal, Option.filter]
      | none =>
          have isGlobal : b.locals.contains name = false := (Table.get?_eq_none_iff _ _).mp found
          simp [found, isGlobal, Option.filter]

theorem valueIn?_of_isSpecial (special : s.isSpecial name = true) (frame : Nat) :
    s.valueIn? name frame = s.outerValue? name :=
  if_pos special

theorem valueIn?_of_lookupIn? {frame : Nat} (ordinary : s.isSpecial name = false)
    (bound : s.store.lookupIn? frame name = some value) : s.valueIn? name frame = some value := by
  unfold valueIn?
  rw [ordinary, if_neg Bool.false_ne_true, bound]

@[simp]
theorem localIn?_setGlobal (s : Session) (name other : String) (value : Value) :
    (s.setGlobal name value).localIn? other = s.localIn? other := rfl

theorem outerValue?_setGlobal (isGlobal : s.localIn? name = none) :
    (s.setGlobal name value).outerValue? other =
      if name = other then some value else s.outerValue? other := by
  rw [outerValue?_eq, outerValue?_eq, localIn?_setGlobal]
  by_cases same : name = other
  · subst same
    rw [isGlobal, if_pos rfl]
    exact (Table.get?_insert ..).trans (if_pos rfl)
  · rw [if_neg same]
    cases s.localIn? other with
    | some b => rfl
    | none => exact (Table.get?_insert ..).trans (if_neg same)

theorem current?_setLocal (c : s.workspace.Consistent) {b : Buffer}
    (current : s.workspace.current? = some b) (name : String) (value : Value) :
    (s.setLocal b.id name value).workspace.current? = some (b.setLocal name value) := by
  show (s.workspace.modifyBuffer b.id _).current? = _
  rw [Workspace.current?_modifyBuffer c, current, Option.map_some, if_pos rfl]

theorem localIn?_setLocal (c : s.workspace.Consistent) {b : Buffer}
    (current : s.workspace.current? = some b) (name : String) (value : Value) :
    (s.setLocal b.id name value).localIn? name = some (b.setLocal name value) :=
  localIn?_eq_some_iff.mpr
    ⟨current?_setLocal c current name value, (Table.contains_insert ..).trans (by simp)⟩

/-- A value given to a variable in the current buffer is what it evaluates to there. -/
theorem outerValue?_setLocal (c : s.workspace.Consistent) {b : Buffer}
    (current : s.workspace.current? = some b) :
    (s.setLocal b.id name value).outerValue? other =
      if name = other then some value else s.outerValue? other := by
  have found : (b.setLocal name value).local? other =
      if name = other then some value else b.local? other :=
    Table.get?_insert ..
  unfold outerValue?
  rw [current?_setLocal c current, current, Option.bind_some, Option.bind_some, found]
  by_cases same : name = other
  · simp only [if_pos same]
  · simp only [if_neg same]
    rfl

/-! ## Dynamic bindings -/

theorem bindSpecial_of_global (isGlobal : s.localIn? name = none) (value : Value) :
    s.bindSpecial name value = (⟨name, none, s.globals.get? name⟩, s.setGlobal name value) := by
  unfold localIn? at isGlobal
  unfold bindSpecial
  rw [isGlobal]

theorem bindSpecial_of_local {b : Buffer} (isLocal : s.localIn? name = some b) (value : Value) :
    s.bindSpecial name value = (⟨name, some b.id, b.local? name⟩, s.setLocal b.id name value) := by
  unfold localIn? at isLocal
  unfold bindSpecial
  rw [isLocal]

/-- A variable evaluates to what it was last bound to, and the others to what they did. -/
theorem outerValue?_bindSpecial (c : s.workspace.Consistent) :
    (s.bindSpecial name value).2.outerValue? other =
      if name = other then some value else s.outerValue? other := by
  cases found : s.localIn? name with
  | none =>
      rw [bindSpecial_of_global found]
      exact outerValue?_setGlobal found
  | some b =>
      rw [bindSpecial_of_local found]
      exact outerValue?_setLocal c (localIn?_eq_some_iff.mp found).1

/-- The first of several bindings is made first and is undone last. -/
theorem bindSpecials_cons (s : Session) (binding : String × Value)
    (rest : List (String × Value)) :
    s.bindSpecials (binding :: rest) =
      let first := s.bindSpecial binding.1 binding.2
      let others := first.2.bindSpecials rest
      (others.1 ++ [first.1], others.2) := by
  let bind (state : List SavedBinding × Session) (b : String × Value) :=
    ((state.2.bindSpecial b.1 b.2).1 :: state.1, (state.2.bindSpecial b.1 b.2).2)
  have from_any (bindings : List (String × Value)) (saved : List SavedBinding) (s : Session) :
      bindings.foldl bind (saved, s) =
        ((bindings.foldl bind ([], s)).1 ++ saved, (bindings.foldl bind ([], s)).2) := by
    induction bindings generalizing saved s with
    | nil => rfl
    | cons b bindings ih =>
        rw [List.foldl_cons, List.foldl_cons, ih, ih [_], List.append_assoc]
        rfl
  exact from_any rest [(s.bindSpecial binding.1 binding.2).1] _

/-- A binding changes no more than the two places where variables have values. -/
theorem bindSpecial_eq (s : Session) (name : String) (value : Value) :
    ∃ globals workspace, (s.bindSpecial name value).2 = { s with globals, workspace } := by
  unfold bindSpecial
  split
  · exact ⟨_, _, rfl⟩
  · exact ⟨_, _, rfl⟩

theorem isSpecial_bindSpecial (s : Session) (name other : String) (value : Value) :
    (s.bindSpecial name value).2.isSpecial other = s.isSpecial other := by
  unfold bindSpecial
  split <;> rfl

theorem isSpecial_bindSpecials (s : Session) (bindings : List (String × Value)) (name : String) :
    (s.bindSpecials bindings).2.isSpecial name = s.isSpecial name := by
  induction bindings generalizing s with
  | nil => rfl
  | cons binding rest ih =>
      rw [bindSpecials_cons]
      exact (ih _).trans (isSpecial_bindSpecial ..)

/-- Of several bindings of a variable the last one counts. -/
theorem outerValue?_bindSpecials (wf : s.workspace.WellFormed) (bindings : List (String × Value))
    (name : String) :
    (s.bindSpecials bindings).2.outerValue? name =
      (lastBound? bindings name).or (s.outerValue? name) := by
  induction bindings generalizing s with
  | nil => rfl
  | cons binding rest ih =>
      have bound := kept_bindSpecial wf binding.1 binding.2
      rw [bindSpecials_cons, lastBound?_cons, Option.or_assoc]
      refine (ih bound.wellFormed).trans ?_
      rw [outerValue?_bindSpecial wf.toConsistent]
      by_cases same : binding.1 = name
      · rw [if_pos same, if_pos same]
        rfl
      · rw [if_neg same, if_neg same]
        rfl

end Session

end EditorLisp
