import EditorLisp.Proofs.Evaluation.Variables

/-!
# Dynamic bindings are undone

Each dynamic binding remembers one slot, the value of a variable in a buffer or its global
value, and undoing it writes that slot and no other.  The bindings are undone in the
opposite order, so the first binding of a variable is the last one to write its slot, and
what it writes is what the slot held before any of them.  What happens in between does not
matter: undoing does not look at what it overwrites.
-/

namespace EditorLisp

namespace Workspace

/-- An edit of a buffer changes the current one, or it does not show there. -/
theorem current?_modifyBuffer_cases (w : Workspace) (id : Nat) (f : Buffer → Buffer) :
    (w.modifyBuffer id f).current? = w.current? ∨
      (w.modifyBuffer id f).current? = w.current?.map f := by
  rw [current?_eq_bind, current?_eq_bind]
  show (w.windows.selected?.bind w.windows.buffer?).bind (w.modifyBuffer id f).buffer? = _ ∨
    (w.windows.selected?.bind w.windows.buffer?).bind (w.modifyBuffer id f).buffer? = _
  cases w.windows.selected?.bind w.windows.buffer? with
  | none => exact .inl rfl
  | some shown =>
      rw [Option.bind_some, Option.bind_some, buffer?_modifyBuffer]
      by_cases same : id = shown
      · exact .inr (if_pos same)
      · exact .inl (if_neg same)

end Workspace

namespace Buffer

variable (b : Buffer) {name other : String}

theorem local?_setLocal_self (name : String) (value : Value) :
    (b.setLocal name value).local? name = some value :=
  (Table.get?_insert ..).trans (if_pos rfl)

theorem local?_setLocal_of_ne (different : other ≠ name) (value : Value) :
    (b.setLocal other value).local? name = b.local? name :=
  (Table.get?_insert ..).trans (if_neg different)

end Buffer

namespace Session

variable {s t : Session} {name other : String}

/-- What a later session holds under a variable that was bound in an earlier one, once
that binding is undone: the same global value if the variable was not local to the buffer
current at the time, and otherwise the same value in that buffer, should it still exist. -/
structure Reinstated (s : Session) (name : String) (t : Session) : Prop where
  globals_eq : s.localIn? name = none → t.globals.get? name = s.globals.get? name
  local_eq : ∀ b, s.localIn? name = some b →
    ∀ b', t.workspace.buffer? b.id = some b' → b'.local? name = b.local? name

/-! ## Bindings of other variables -/

/-- The buffer a variable is local in, by number, with its value there. -/
def localValue? (s : Session) (name : String) : Option (Nat × Option Value) :=
  (s.localIn? name).map fun b => (b.id, b.local? name)

theorem localValue?_setLocal_of_ne (id : Nat) (different : other ≠ name) (value : Value) :
    (s.setLocal id other value).localValue? name = s.localValue? name := by
  have unseen (b : Buffer) :
      (b.setLocal other value).locals.contains name = b.locals.contains name :=
    congrArg Option.isSome (b.local?_setLocal_of_ne different value)
  unfold localValue? localIn?
  rcases s.workspace.current?_modifyBuffer_cases id (·.setLocal other value) with same | edited
  · rw [setLocal, same]
  · rw [setLocal, edited]
    cases s.workspace.current? with
    | none => rfl
    | some b =>
        rw [Option.map_some, Option.filter_some, Option.filter_some, unseen]
        cases b.locals.contains name with
        | false => rfl
        | true => exact congrArg (fun v => some (b.id, v)) (b.local?_setLocal_of_ne different value)

theorem localValue?_bindSpecial_of_ne (different : other ≠ name) (value : Value) :
    (s.bindSpecial other value).2.localValue? name = s.localValue? name := by
  cases found : s.localIn? other with
  | none => rw [bindSpecial_of_global found]; rfl
  | some b => rw [bindSpecial_of_local found]; exact localValue?_setLocal_of_ne b.id different value

theorem globals_bindSpecial_of_ne (different : other ≠ name) (value : Value) :
    (s.bindSpecial other value).2.globals.get? name = s.globals.get? name := by
  cases found : s.localIn? other with
  | none => rw [bindSpecial_of_global found]; exact (Table.get?_insert ..).trans (if_neg different)
  | some b => rw [bindSpecial_of_local found]; rfl

/-- A binding of another variable made in the meantime does not matter. -/
theorem Reinstated.of_bindSpecial (different : other ≠ name) {value : Value}
    (h : (s.bindSpecial other value).2.Reinstated name t) : s.Reinstated name t := by
  have same := localValue?_bindSpecial_of_ne (s := s) different value
  unfold localValue? at same
  constructor
  · intro isGlobal
    rw [isGlobal, Option.map_none, Option.map_eq_none_iff] at same
    rw [h.globals_eq same, globals_bindSpecial_of_ne different value]
  · intro b isLocal b' there
    rw [isLocal, Option.map_some, Option.map_eq_some_iff] at same
    obtain ⟨bound, foundThen, agree⟩ := same
    obtain ⟨sameId, sameValue⟩ := Prod.mk.inj agree
    rw [← sameId] at there
    exact (h.local_eq bound foundThen b' there).trans sameValue

/-! ## Undoing -/

/-- Undoing a binding writes no slot of another variable. -/
theorem Reinstated.undoBinding_of_ne {saved : SavedBinding} (different : saved.name ≠ name)
    (h : s.Reinstated name t) : s.Reinstated name (t.undoBinding saved) := by
  obtain ⟨other, buffer, old⟩ := saved
  cases buffer with
  | none =>
      refine ⟨fun isGlobal => ?_, h.local_eq⟩
      exact ((Table.get?_set? ..).trans (if_neg different)).trans (h.globals_eq isGlobal)
  | some id =>
      cases old with
      | none => exact h
      | some old =>
          refine ⟨h.globals_eq, fun b isLocal b' there => ?_⟩
          have found := (Workspace.buffer?_modifyBuffer b.id).symm.trans there
          by_cases same : id = b.id
          · rw [if_pos same, Option.map_eq_some_iff] at found
            obtain ⟨before, here, rfl⟩ := found
            rw [before.local?_setLocal_of_ne different old]
            exact h.local_eq b isLocal before here
          · rw [if_neg same] at found
            exact h.local_eq b isLocal b' found

/-- Undoing a binding writes what its slot held, whatever has happened since. -/
theorem reinstated_undoBinding (s t : Session) (name : String) (value : Value) :
    s.Reinstated name (t.undoBinding (s.bindSpecial name value).1) := by
  cases found : s.localIn? name with
  | none =>
      rw [bindSpecial_of_global found]
      refine ⟨fun _ => (Table.get?_set? ..).trans (if_pos rfl), fun b isLocal => ?_⟩
      rw [found] at isLocal
      cases isLocal
  | some b =>
      rw [bindSpecial_of_local found]
      obtain ⟨old, before⟩ := local?_of_localIn? found
      refine ⟨fun isGlobal => ?_, fun b' isLocal after there => ?_⟩
      · rw [found] at isGlobal
        cases isGlobal
      · rw [found] at isLocal
        cases isLocal
        rw [before] at there ⊢
        have written := (Workspace.buffer?_modifyBuffer b.id).symm.trans there
        rw [if_pos rfl, Option.map_eq_some_iff] at written
        obtain ⟨b', -, rfl⟩ := written
        exact b'.local?_setLocal_self name old

theorem name_bindSpecial (s : Session) (name : String) (value : Value) :
    (s.bindSpecial name value).1.name = name := by
  unfold bindSpecial
  split <;> rfl

/-- The induction is on the bindings: the first of them is undone last, so for its own name
it alone decides, and for the others it changes nothing. -/
theorem reinstated_undoBindings (s t : Session) (bindings : List (String × Value)) :
    ∀ name ∈ bindings.map Prod.fst,
      s.Reinstated name (t.undoBindings (s.bindSpecials bindings).1) := by
  induction bindings generalizing s t with
  | nil => intro name bound; cases bound
  | cons first rest ih =>
      intro name bound
      rw [bindSpecials_cons]
      show s.Reinstated name (t.undoBindings (_ ++ [_]))
      rw [undoBindings, List.foldl_append]
      by_cases same : first.1 = name
      · subst same
        exact reinstated_undoBinding s _ first.1 first.2
      · have later : name ∈ rest.map Prod.fst :=
          (List.mem_cons.mp bound).resolve_left fun h => same h.symm
        refine (Reinstated.of_bindSpecial same (ih _ t name later)).undoBinding_of_ne ?_
        rwa [name_bindSpecial]

end Session

/-! ## Steps with bindings around them -/

/-- An outcome that answers or leaves as another one does, in a session of which something
holds. -/
inductive Outcome.EndsAs {α : Type} (P : Session → Prop) : Outcome α → Outcome α → Prop
  | ok (a : α) (s : Session) {t : Session} (holds : P t) : EndsAs P (.ok a s) (.ok a t)
  | exit (flow : Flow) (s : Session) {t : Session} (holds : P t) :
      EndsAs P (.exit flow s) (.exit flow t)
  | crashed (s : Session) : EndsAs P (.crashed s) (.crashed s)
  | unfinished : EndsAs P .unfinished .unfinished

namespace Outcome.EndsAs

variable {α : Type} {P Q : Session → Prop} {o o' : Outcome α}

/-- The same outcome, of which nothing is to be shown. -/
theorem refl (o : Outcome α) (always : ∀ s, P s) : o.EndsAs P o := by
  cases o with
  | ok a s => exact ok a s (always s)
  | exit flow s => exact exit flow s (always s)
  | crashed s => exact crashed s
  | unfinished => exact unfinished

/-- The same outcome, of which something is known. -/
theorem of_leaves (h : o.Leaves P) : o.EndsAs P o := by
  cases o with
  | ok a s => exact ok a s h
  | exit flow s => exact exit flow s h
  | crashed s => exact crashed s
  | unfinished => exact unfinished

theorem mono (h : o.EndsAs P o') (weaker : ∀ t, P t → Q t) : o.EndsAs Q o' := by
  cases h with
  | ok a s holds => exact ok a s (weaker _ holds)
  | exit flow s holds => exact exit flow s (weaker _ holds)
  | crashed s => exact crashed s
  | unfinished => exact unfinished

theorem ensuring {m : Eval α} {s : Session} {after : Session → Session} (h : o.EndsAs P (m s))
    (next : ∀ t, P t → Q (after t)) : o.EndsAs Q (m.ensuring after s) := by
  unfold Eval.ensuring
  generalize m s = ended at h
  cases h with
  | ok a s holds => exact ok a s (next _ holds)
  | exit flow s holds => exact exit flow s (next _ holds)
  | crashed s => exact crashed s
  | unfinished => exact unfinished

end Outcome.EndsAs

namespace Eval

variable {α : Type}

/-- Without bindings there is nothing to undo. -/
theorem ensuring_nil (m : Eval α) (s : Session) : m.ensuring (·.undoBindings []) s = m s := by
  unfold ensuring
  cases m s <;> rfl

theorem withDynamic_eq (bindings : List (String × Value)) (m : Eval α) (s : Session) :
    withDynamic bindings m s =
      m.ensuring (·.undoBindings (s.bindSpecials bindings).1) (s.bindSpecials bindings).2 := by
  cases bindings with
  | cons binding rest => rfl
  | nil => exact (ensuring_nil m s).symm

/-- A step with bindings around it ends as the step itself does, with the bindings undone. -/
theorem endsAs_withDynamic (bindings : List (String × Value)) (m : Eval α) (s : Session) :
    (m (s.bindSpecials bindings).2).EndsAs
      (fun t => ∀ name ∈ bindings.map Prod.fst, s.Reinstated name t)
      (withDynamic bindings m s) := by
  rw [withDynamic_eq]
  refine Outcome.EndsAs.ensuring (Outcome.EndsAs.refl _ fun _ => trivial) fun t _ => ?_
  exact s.reinstated_undoBindings t bindings

end Eval

end EditorLisp
