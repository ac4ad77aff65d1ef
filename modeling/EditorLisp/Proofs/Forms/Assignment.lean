import EditorLisp.Program
import EditorLisp.Proofs.Evaluation.Call
import EditorLisp.Proofs.Evaluation.Dynamic

/-!
# Assignments under a dynamic binding

A dynamic binding goes into the value that is in force, and so does an assignment, with one
exception: a variable that becomes local when it is set gets a value in the current buffer,
although its binding went into the global value.  Undoing the binding does not look for
that value, so it stays behind.
-/

namespace EditorLisp

namespace Session

variable {s t : Session} {name : String}

/-- In a workspace in order an assignment goes to the current buffer or to the global value. -/
theorem setOuter_eq (wf : s.workspace.WellFormed) {b : Buffer}
    (current : s.workspace.current? = some b) (name : String) (value : Value) :
    s.setOuter name value =
      if s.autoLocal.contains name || b.locals.contains name then s.setLocal b.id name value
      else s.setGlobal name value := by
  obtain ⟨b', current', same, there⟩ := Workspace.current?_of_wellFormed wf
  obtain rfl : b' = b := Option.some.inj (current'.symm.trans current)
  unfold setOuter
  rw [same]
  simp only [there, Option.any_some]

/-- An assignment does not look at how deep evaluation is nested. -/
theorem setOuter_withDepth (s : Session) (depth : Nat) (name : String) (value : Value) :
    ({ s with depth } : Session).setOuter name value = { s.setOuter name value with depth } := by
  unfold setOuter
  simp only
  split <;> rfl

/-- The values of variables outside of frames, and which of them are special. -/
structure SameVariables (s t : Session) : Prop where
  globals_eq : t.globals = s.globals
  workspace_eq : t.workspace = s.workspace
  specials_eq : t.specials = s.specials

namespace SameVariables

theorem outerValue?_eq (h : s.SameVariables t) (name : String) :
    t.outerValue? name = s.outerValue? name := by
  unfold outerValue?
  rw [h.globals_eq, h.workspace_eq]

theorem isSpecial_eq (h : s.SameVariables t) (name : String) :
    t.isSpecial name = s.isSpecial name :=
  congrArg (Table.contains · name) h.specials_eq

theorem undoBinding (h : s.SameVariables t) (saved : SavedBinding) :
    (s.undoBinding saved).SameVariables (t.undoBinding saved) := by
  obtain ⟨name, buffer, old⟩ := saved
  cases buffer with
  | none => exact ⟨congrArg (Table.set? · name old) h.globals_eq, h.workspace_eq, h.specials_eq⟩
  | some id =>
      cases old with
      | none => exact h
      | some old =>
          exact ⟨h.globals_eq, congrArg (Workspace.modifyBuffer · id _) h.workspace_eq,
            h.specials_eq⟩

end SameVariables

theorem isSpecial_undoBinding (s : Session) (saved : SavedBinding) (name : String) :
    (s.undoBinding saved).isSpecial name = s.isSpecial name := by
  unfold undoBinding
  split
  · rfl
  · split <;> rfl

theorem isSpecial_setOuter (s : Session) (name other : String) (value : Value) :
    (s.setOuter name value).isSpecial other = s.isSpecial other := by
  unfold setOuter
  simp only
  split <;> rfl

/-- A binding in the current buffer is undone there, whatever value it has by then. -/
theorem outerValue?_undoLocal (c : s.workspace.Consistent) {b : Buffer} (old : Value)
    (current : s.workspace.current? = some b) :
    (s.undoBinding ⟨name, some b.id, some old⟩).outerValue? name = some old :=
  (outerValue?_setLocal c current).trans (if_pos rfl)

/-- A global binding is undone globally, which shows unless the variable is local by then. -/
theorem outerValue?_undoGlobal (s : Session) (name : String) (old : Option Value) :
    (s.undoBinding ⟨name, none, old⟩).outerValue? name =
      match s.localIn? name with
      | some b => b.local? name
      | none => old := by
  rw [outerValue?_eq]
  show (match s.localIn? name with
    | some b => b.local? name
    | none => (s.globals.set? name old).get? name) = _
  rw [Table.get?_set?, if_pos rfl]

/-- A binding that is undone at once leaves the variable as it was. -/
theorem outerValue?_undo_bindSpecial (wf : s.workspace.WellFormed) (name : String) (value : Value) :
    ((s.bindSpecial name value).2.undoBinding (s.bindSpecial name value).1).outerValue? name =
      s.outerValue? name := by
  rw [outerValue?_eq s]
  cases found : s.localIn? name with
  | some b =>
      obtain ⟨old, before⟩ := local?_of_localIn? found
      have current := (localIn?_eq_some_iff.mp found).1
      rw [bindSpecial_of_local found, before]
      have bound := kept_setLocal wf b.id name value
      exact (outerValue?_undoLocal bound.wellFormed.toConsistent old
        (current?_setLocal wf.toConsistent current name value)).trans before.symm
  | none =>
      rw [bindSpecial_of_global found]
      refine (outerValue?_undoGlobal _ name _).trans ?_
      rw [localIn?_setGlobal, found]

/-- What is assigned to a variable that is local under a binding of it goes with that binding. -/
theorem outerValue?_undo_setOuter_of_local (wf : s.workspace.WellFormed) {b : Buffer}
    (found : s.localIn? name = some b) (v w : Value) :
    (((s.bindSpecial name v).2.setOuter name w).undoBinding
        (s.bindSpecial name v).1).outerValue? name = b.local? name := by
  have current := (localIn?_eq_some_iff.mp found).1
  obtain ⟨old, before⟩ := local?_of_localIn? found
  rw [bindSpecial_of_local found, before]
  have bound := kept_setLocal wf b.id name v
  have boundIn := current?_setLocal wf.toConsistent current name v
  have stillLocal : (b.setLocal name v).locals.contains name = true :=
    (localIn?_eq_some_iff.mp (localIn?_setLocal wf.toConsistent current name v)).2
  have assigned : (s.setLocal b.id name v).setOuter name w =
      (s.setLocal b.id name v).setLocal b.id name w := by
    rw [setOuter_eq bound.wellFormed boundIn, stillLocal, Bool.or_true, if_pos rfl]
    rfl
  rw [assigned]
  have set := kept_setLocal bound.wellFormed b.id name w
  exact (outerValue?_undoLocal set.wellFormed.toConsistent old
    (current?_setLocal bound.wellFormed.toConsistent boundIn name w)).trans rfl

/-- What is assigned under a global binding goes with it, unless the variable becomes local. -/
theorem outerValue?_undo_setOuter_of_global (wf : s.workspace.WellFormed)
    (found : s.localIn? name = none) (v w : Value) :
    (((s.bindSpecial name v).2.setOuter name w).undoBinding
        (s.bindSpecial name v).1).outerValue? name =
      if s.autoLocal.contains name = true then some w else s.globals.get? name := by
  obtain ⟨b, current, -, -⟩ := Workspace.current?_of_wellFormed wf
  have unbound : b.locals.contains name = false := by
    cases bound : b.locals.contains name with
    | false => rfl
    | true => rw [localIn?_eq_some_iff.mpr ⟨current, bound⟩] at found; cases found
  rw [bindSpecial_of_global found]
  have assigned := setOuter_eq (s := s.setGlobal name v) wf current name w
  rw [unbound, Bool.or_false] at assigned
  show ((((s.setGlobal name v).setOuter name w).undoBinding _).outerValue? name) = _
  refine (outerValue?_undoGlobal _ name _).trans ?_
  rw [assigned]
  cases auto : s.autoLocal.contains name with
  | true =>
      have auto' : (s.setGlobal name v).autoLocal.contains name = true := auto
      rw [auto', if_pos rfl, if_pos rfl,
        localIn?_setLocal (s := s.setGlobal name v) wf.toConsistent current]
      exact b.local?_setLocal_self name w
  | false =>
      have auto' : (s.setGlobal name v).autoLocal.contains name = false := auto
      rw [auto', if_neg Bool.false_ne_true, if_neg Bool.false_ne_true, localIn?_setGlobal,
        localIn?_setGlobal, found]

/-- After an assignment under a binding that is then undone, the variable is as it was,
unless the assignment was the one that made it local. -/
theorem outerValue?_undo_setOuter (wf : s.workspace.WellFormed) (name : String) (v w : Value) :
    (((s.bindSpecial name v).2.setOuter name w).undoBinding
        (s.bindSpecial name v).1).outerValue? name =
      if s.autoLocal.contains name = true ∧ s.localIn? name = none then some w
      else s.outerValue? name := by
  rw [outerValue?_eq s]
  cases found : s.localIn? name with
  | some b => exact (outerValue?_undo_setOuter_of_local wf found v w).trans (if_neg (by simp)).symm
  | none =>
      refine (outerValue?_undo_setOuter_of_global wf found v w).trans ?_
      simp only [and_true]

end Session

/-- The session that an outcome leaves behind, if the run goes on from there. -/
def Outcome.after? {α : Type} : Outcome α → Option Session
  | .ok _ s => some s
  | .exit _ s => some s
  | .crashed _ => none
  | .unfinished => none

namespace Forms

open Eval

variable {I : Interp} {frame : Nat} {s : Session} {x : String} {place spec binding : Value}

/-- A binding list of one variable with an initial form. -/
theorem bindings_single {init : Value} (listed : s.store.list? spec = some [binding])
    (bound : s.store.IsList binding place [init]) (named : place.symbolName? = some x) :
    bindings spec s = .ok [(x, some init)] s := by
  obtain ⟨ref, rfl⟩ := bound.isPair
  obtain ⟨rest, first⟩ := Store.isCons_of_list? bound.cdr_eq
  have named' : symbolName place = (pure x : Eval String) := by
    unfold symbolName
    rw [named]
  simp only [bindings, List.mapM_cons, List.mapM_nil, bind, pure, Eval.bind, Eval.pure,
    properList, listed,
    car, cdr, Eval.get, bound.car_eq, named', rest, first, if_true]

/-- The body of a `let` of one special variable runs in a new frame that binds nothing, with
the variable bound dynamically. -/
theorem letForm_single {init v : Value} {body : List Value}
    (parsed : bindings spec s = .ok [(x, some init)] s)
    (evaluated : I.eval init frame s = .ok v s) (special : s.isSpecial x = true) :
    letForm I (spec :: body) frame s =
      withDynamic [(x, v)] (I.evalBody s.store.frames.size body)
        { s with store := (s.store.childFrameWith frame []).2 } := by
  have values : letValues I frame [] [] [(x, some init)] s = .ok ([(x, v)], []) s := by
    rw [letValues]
    refine (bind_of_ok _ evaluated).trans ((bind_of_ok _ rfl).trans ?_)
    rw [if_pos special]
    rfl
  unfold letForm
  exact (bind_of_ok _ parsed).trans ((bind_of_ok _ values).trans rfl)

/-- A `let` whose initial form leaves binds nothing. -/
theorem letForm_single_exit {init : Value} {flow : Flow} {s' : Session} {body : List Value}
    (parsed : bindings spec s = .ok [(x, some init)] s)
    (left : I.eval init frame s = .exit flow s') :
    letForm I (spec :: body) frame s = .exit flow s' := by
  have stopped : letValues I frame [] [] [(x, some init)] s = .exit flow s' := by
    rw [letValues]
    exact bind_of_exit _ left
  unfold letForm
  exact (bind_of_ok _ parsed).trans (bind_of_exit _ stopped)

theorem setq_single {final w : Value} (named : place.symbolName? = some x)
    (evaluated : I.eval final frame s = .ok w s) :
    setq I [place, final] frame s = (setVariable x w frame >>= fun _ => pure w) s := by
  unfold setq assignment assignPairs
  rw [if_neg (by simp)]
  refine (bind_of_ok _ (symbolName_of_symbolName? named s)).trans ?_
  refine (bind_of_ok _ evaluated).trans ?_
  rfl

/-- An assignment whose form leaves assigns nothing. -/
theorem setq_single_exit {final : Value} {flow : Flow} {s' : Session}
    (named : place.symbolName? = some x) (left : I.eval final frame s = .exit flow s') :
    setq I [place, final] frame s = .exit flow s' := by
  unfold setq assignment assignPairs
  rw [if_neg (by simp)]
  exact (bind_of_ok _ (symbolName_of_symbolName? named s)).trans (bind_of_exit _ left)

theorem setVariable_special (assignable : isConstantName x = false) (special : s.isSpecial x = true)
    (value : Value) : setVariable x value frame s = .ok () (s.setOuter x value) := by
  unfold setVariable
  rw [if_neg (by simp [assignable])]
  refine (bind_session _ s).trans ?_
  simp only [special, if_true]
  rfl

theorem setVariable_constant (constant : isConstantName x = true) (value : Value) (frame : Nat) :
    ∃ flow store, setVariable x value frame s = .exit flow { s with store } := by
  unfold setVariable
  rw [if_pos constant]
  exact ⟨_, _, rfl⟩

/-! ### The form as a whole -/

section Whole

variable {assignment final w : Value} (level frame : Nat)

/-- An assignment that is carried out goes outside of frames. -/
theorem evalForm_setq (room : s.depth + 2 ≤ s.config.maxDepth)
    (call : s.store.IsList assignment (.symbol "setq") [place, final])
    (unbound : s.functions.contains "setq" = false) (steady : Steady s final w)
    (named : place.symbolName? = some x) (assignable : isConstantName x = false)
    (special : s.isSpecial x = true) :
    ∃ s', evalForm (.ofLevel (level + 1)) assignment frame s = .ok w s' ∧
      (s.setOuter x w).SameVariables s' := by
  rw [evalForm_special (by omega) call unbound rfl]
  have evaluated : (Interp.ofLevel (level + 1)).eval final frame { s with depth := s.depth + 1 } =
      .ok w { s with depth := s.depth + 1 } :=
    steady _ _ _ ⟨rfl, rfl⟩ rfl (show s.depth + 1 < s.config.maxDepth by omega)
  have assigned : setVariable x w frame { s with depth := s.depth + 1 } = _ :=
    setVariable_special (s := { s with depth := s.depth + 1 }) assignable special w
  rw [Session.setOuter_withDepth] at assigned
  exact ⟨_, ensuring_of_ok _ ((setq_single named evaluated).trans (bind_of_ok _ assigned)),
    rfl, rfl, rfl⟩

/-- An assignment that is refused leaves all variables alone. -/
theorem evalForm_setq_refused (room : s.depth + 1 ≤ s.config.maxDepth)
    (call : s.store.IsList assignment (.symbol "setq") [place, final])
    (unbound : s.functions.contains "setq" = false) (steady : Steady s final w)
    (named : place.symbolName? = some x)
    (refused : s.depth + 2 ≤ s.config.maxDepth → isConstantName x = true) :
    ∃ flow s', evalForm (.ofLevel (level + 1)) assignment frame s = .exit flow s' ∧
      s.SameVariables s' := by
  rw [evalForm_special (by omega) call unbound rfl]
  by_cases deep : s.depth + 2 ≤ s.config.maxDepth
  · have evaluated : (Interp.ofLevel (level + 1)).eval final frame { s with depth := s.depth + 1 } =
        .ok w { s with depth := s.depth + 1 } :=
      steady _ _ _ ⟨rfl, rfl⟩ rfl (show s.depth + 1 < s.config.maxDepth by omega)
    obtain ⟨flow, store, stopped⟩ :=
      setVariable_constant (s := { s with depth := s.depth + 1 }) (refused deep) w frame
    have left := (setq_single named evaluated).trans (bind_of_exit _ stopped)
    exact ⟨_, _, ensuring_of_exit _ left, rfl, rfl, rfl⟩
  · have tooDeep : s.config.maxDepth < s.depth + 1 + 1 := by omega
    obtain ⟨data, store, stopped⟩ :=
      evalForm_tooDeep (s := { s with depth := s.depth + 1 }) (.ofLevel level) final frame tooDeep
    have left := setq_single_exit (I := .ofLevel (level + 1)) named stopped
    exact ⟨_, _, ensuring_of_exit _ left, rfl, rfl, rfl⟩

/-- An assignment under a dynamic binding of the same variable, which is then undone. -/
theorem withDynamic_setq {v : Value} (inOrder : s.workspace.WellFormed)
    (special : s.isSpecial x = true) (room : s.depth + 1 ≤ s.config.maxDepth)
    (call : s.store.IsList assignment (.symbol "setq") [place, final])
    (unbound : s.functions.contains "setq" = false) (steady : Steady s final w)
    (named : place.symbolName? = some x) :
    ∃ s', (withDynamic [(x, v)] (evalForm (.ofLevel (level + 1)) assignment frame) s).after? =
        some s' ∧
      (s.depth + 2 ≤ s.config.maxDepth ∧ isConstantName x = false →
        withDynamic [(x, v)] (evalForm (.ofLevel (level + 1)) assignment frame) s = .ok w s') ∧
      s'.isSpecial x = true ∧
      s'.outerValue? x =
        if (s.depth + 2 ≤ s.config.maxDepth ∧ isConstantName x = false) ∧
            s.autoLocal.contains x = true ∧ s.localIn? x = none then some w
        else s.outerValue? x := by
  have undone := s.outerValue?_undo_bindSpecial inOrder x v
  have assigned := s.outerValue?_undo_setOuter inOrder x v w
  have stillSpecial := (s.isSpecial_bindSpecial x x v).trans special
  obtain ⟨globals, workspace, only⟩ := s.bindSpecial_eq x v
  show ∃ s',
    ((ensuring _ (·.undoBinding (s.bindSpecial x v).1) (s.bindSpecial x v).2).after? = some s') ∧
    (_ → ensuring _ (·.undoBinding (s.bindSpecial x v).1) (s.bindSpecial x v).2 = .ok w s') ∧ _
  rw [only] at undone assigned stillSpecial ⊢
  generalize (s.bindSpecial x v).1 = saved at undone assigned ⊢
  have steady' : Steady { s with globals, workspace } final w := steady.of_sameData ⟨rfl, rfl⟩ rfl
  by_cases carried : s.depth + 2 ≤ s.config.maxDepth ∧ isConstantName x = false
  · obtain ⟨s', answered, same⟩ := evalForm_setq (s := { s with globals, workspace })
      level frame carried.1 call unbound steady' named carried.2 stillSpecial
    rw [ensuring_of_ok _ answered]
    refine ⟨_, rfl, fun _ => rfl, ?_, ?_⟩
    · rw [(same.undoBinding saved).isSpecial_eq, Session.isSpecial_undoBinding,
        Session.isSpecial_setOuter, stillSpecial]
    · rw [(same.undoBinding saved).outerValue?_eq, assigned]
      simp only [carried, true_and, and_self]
  · obtain ⟨flow, s', left, same⟩ := evalForm_setq_refused (s := { s with globals, workspace })
      level frame room call unbound steady' named
      fun deep => by simpa [deep] using carried
    rw [ensuring_of_exit _ left]
    refine ⟨_, rfl, fun enough => absurd enough carried, ?_, ?_⟩
    · rw [(same.undoBinding saved).isSpecial_eq, Session.isSpecial_undoBinding, stillSpecial]
    · rw [(same.undoBinding saved).outerValue?_eq, undone, if_neg fun all => carried all.1]

/-- The form `(let ((PLACE INITIAL)) (setq PLACE FINAL))` as it stands in the store. -/
def IsLetSetq (st : Store) (form place initial final : Value) : Prop :=
  ∃ spec binding assignment,
    st.IsList form (.symbol "let") [spec, assignment] ∧ st.list? spec = some [binding] ∧
      st.IsList binding place [initial] ∧ st.IsList assignment (.symbol "setq") [place, final]

/-- After an assignment to a special variable inside of a `let` of the same variable, the
variable evaluates to what it did before, unless it is one that becomes local when it is
set and was not local yet: the assignment is carried out, makes it local to the current
buffer, and the value it is given there stays.  An assignment to a constant, and one that
is nested too deeply, leaves the form by a signal. -/
theorem valueIn?_let_setq {form initial v : Value} (inOrder : s.workspace.WellFormed)
    (special : s.isSpecial x = true) (named : place.symbolName? = some x)
    (shape : IsLetSetq s.store form place initial final)
    (letUnbound : s.functions.contains "let" = false)
    (setqUnbound : s.functions.contains "setq" = false)
    (first : Steady s initial v) (second : Steady s final w) :
    ∃ s', ((Interp.ofLevel (level + 3)).eval form frame s).after? = some s' ∧
      (s.depth + 3 ≤ s.config.maxDepth ∧ isConstantName x = false →
        (Interp.ofLevel (level + 3)).eval form frame s = .ok w s') ∧
      s'.valueIn? x frame =
        if (s.depth + 3 ≤ s.config.maxDepth ∧ isConstantName x = false) ∧
            s.autoLocal.contains x = true ∧ s.localIn? x = none then some w
        else s.valueIn? x frame := by
  obtain ⟨spec, binding, assignment, isLet, listed, bound, isSetq⟩ := shape
  show ∃ s', (evalForm (.ofLevel (level + 2)) form frame s).after? = some s' ∧
    (_ → evalForm (.ofLevel (level + 2)) form frame s = .ok w s') ∧ _
  rw [Session.valueIn?_of_isSpecial special]
  by_cases room : s.depth + 1 ≤ s.config.maxDepth
  swap
  · obtain ⟨data, store, left⟩ := evalForm_tooDeep (s := s) (.ofLevel (level + 2)) form frame
      (by omega)
    rw [left]
    refine ⟨_, rfl, fun enough => by omega, ?_⟩
    rw [if_neg (by omega)]
    exact Session.valueIn?_of_isSpecial (s := { s with store }) special frame
  rw [evalForm_special (by omega) isLet letUnbound rfl]
  have parsed : bindings spec { s with depth := s.depth + 1 } =
      .ok [(x, some initial)] { s with depth := s.depth + 1 } := bindings_single listed bound named
  by_cases room' : s.depth + 2 ≤ s.config.maxDepth
  swap
  · obtain ⟨data, store, left⟩ := evalForm_tooDeep (s := { s with depth := s.depth + 1 })
      (.ofLevel (level + 1)) initial frame (show s.config.maxDepth < s.depth + 1 + 1 by omega)
    rw [ensuring_of_exit _ (letForm_single_exit (I := .ofLevel (level + 2)) parsed left)]
    refine ⟨_, rfl, fun enough => by omega, ?_⟩
    rw [if_neg (by omega)]
    exact Session.valueIn?_of_isSpecial (s := { s with store }) special frame
  have evaluated : (Interp.ofLevel (level + 2)).eval initial frame { s with depth := s.depth + 1 } =
      .ok v { s with depth := s.depth + 1 } :=
    first _ _ _ ⟨rfl, rfl⟩ rfl (show s.depth + 1 < s.config.maxDepth by omega)
  unfold ensuring
  have same : s.store.SameData (s.store.childFrameWith frame []).2 := ⟨rfl, rfl⟩
  rw [letForm_single parsed evaluated special]
  obtain ⟨s', ended, answered, stillSpecial, value⟩ :=
    withDynamic_setq (v := v)
      (s := { s with depth := s.depth + 1, store := (s.store.childFrameWith frame []).2 })
      level s.store.frames.size inOrder special (show s.depth + 1 + 1 ≤ _ from room')
      (same.isList isSetq) setqUnbound (second.of_sameData same rfl) named
  have body : (Interp.ofLevel (level + 2)).evalBody s.store.frames.size [assignment] =
      evalForm (.ofLevel (level + 1)) assignment s.store.frames.size := rfl
  rw [body]
  have left : ({ s' with depth := s'.depth - 1 } : Session).valueIn? x frame = s'.outerValue? x :=
    Session.valueIn?_of_isSpecial (s := { s' with depth := s'.depth - 1 }) stillSpecial frame
  generalize withDynamic _ _ _ = outcome at ended answered ⊢
  refine ⟨{ s' with depth := s'.depth - 1 }, ?_, ?_, left.trans value⟩
  · cases outcome <;> cases ended <;> rfl
  · intro carried
    rw [answered carried]

end Whole

/-- A global value of 1 is back after `(let ((x 2)) (setq x 3))`. -/
theorem valueIn?_let_setq_global :
    let s : Session :=
      { globals := .ofList [("x", .int 1)], specials := .ofList [("x", ())]
        store := { pairs := #[⟨.symbol "x", .cons 1⟩, ⟨.int 2, .nil⟩, ⟨.cons 0, .nil⟩,
          ⟨.symbol "setq", .cons 4⟩, ⟨.symbol "x", .cons 5⟩, ⟨.int 3, .nil⟩,
          ⟨.symbol "let", .cons 7⟩, ⟨.cons 2, .cons 8⟩, ⟨.cons 3, .nil⟩] } }
    ∃ s', (Interp.ofLevel 3).eval (.cons 6) 0 s = .ok (.int 3) s' ∧
      s'.valueIn? "x" 0 = some (.int 1) := by
  intro s
  have shape : IsLetSetq s.store (.cons 6) (.symbol "x") (.int 2) (.int 3) :=
    ⟨.cons 2, .cons 0, .cons 3, ⟨⟨6, rfl⟩, rfl, rfl⟩, rfl, ⟨⟨0, rfl⟩, rfl, rfl⟩,
      ⟨⟨3, rfl⟩, rfl, rfl⟩⟩
  obtain ⟨s', -, answered, value⟩ :=
    valueIn?_let_setq (s := s) (x := "x") 0 0 Workspace.wellFormed_initial rfl rfl shape rfl rfl
      (steady_atom s (by simp) (by simp)) (steady_atom s (by simp) (by simp))
  exact ⟨s', answered ⟨by decide, by decide +kernel⟩,
    value.trans (if_neg fun local' => nomatch local'.2.1)⟩

/-- The integer that a variable evaluates to at top level after a program has run in a new
session. -/
def integerAfter? (program name : String) : Option Int64 := do
  let s ← (evalSource program (.new {} {} {})).after?
  (← s.valueIn? name Store.rootFrame).int?

/-- A variable that becomes local when it is set keeps the value it was given inside. -/
theorem valueIn?_let_setq_autoLocal :
    integerAfter? "(defvar-local x 1)" "x" = some 1 ∧
      integerAfter? "(defvar-local x 1) (let ((x 2)) (setq x 3))" "x" = some 3 := by
  decide +kernel

end Forms

end EditorLisp
