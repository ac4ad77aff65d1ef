import EditorLisp.Interpreter
import EditorLisp.Proofs.Forms.Agrees
import EditorLisp.Proofs.Primitives.Agrees

/-!
# Enough levels

An interpreter with more levels answers whatever one with fewer levels answers, and in the
same way.  So how the evaluation of a form ends does not depend on the bound: it ends in at
most one way, and with every number of levels that is great enough.  `Interp.Ends` says how,
and leaves the levels out.
-/

namespace EditorLisp

open Eval Eval.Agrees

/-! ## The tables -/

/-- Primitives that agree with themselves under another interpreter. -/
class AllAgree (I J : Interp) (table : List (String × Primitive)) : Prop where
  all : ∀ e ∈ table, ∀ args, Agrees (e.2 I args) (e.2 J args)

namespace AllAgree

variable {I J : Interp} {name : String} {p : Primitive} {rest : List (String × Primitive)}

theorem nil : AllAgree I J [] := ⟨List.forall_mem_nil _⟩

theorem cons [first : ∀ args, Agrees (p I args) (p J args)] (others : AllAgree I J rest) :
    AllAgree I J ((name, p) :: rest) :=
  ⟨List.forall_mem_cons.mpr ⟨first, others.all⟩⟩

/-- A primitive that asks nothing of the interpreter. -/
theorem same (first : p I = p J) (others : AllAgree I J rest) : AllAgree I J ((name, p) :: rest) :=
  ⟨List.forall_mem_cons.mpr ⟨fun args => of_eq (congrFun first args), others.all⟩⟩

instance append (front back : List (String × Primitive)) [first : AllAgree I J front]
    [second : AllAgree I J back] : AllAgree I J (front ++ back) :=
  ⟨List.forall_mem_append.mpr ⟨first.all, second.all⟩⟩

end AllAgree

section Tables

open Primitives AllAgree

variable (I J : Interp) [I.Agrees J]

instance : AllAgree I J arithmetic := by
  unfold arithmetic
  repeat refine same rfl ?_
  exact nil

instance : AllAgree I J lists := by
  unfold lists
  repeat first | refine cons ?_ | refine same rfl ?_
  exact nil

instance : AllAgree I J sequences := by
  unfold sequences
  repeat refine same rfl ?_
  exact nil

instance : AllAgree I J symbols := by
  unfold symbols
  repeat first | refine cons ?_ | refine same rfl ?_
  exact nil

instance : AllAgree I J strings := by
  unfold strings
  repeat refine same rfl ?_
  exact nil

instance : AllAgree I J higherOrder := by
  unfold higherOrder
  repeat first | refine cons ?_ | refine same rfl ?_
  exact nil

instance : AllAgree I J reports := by
  unfold reports
  repeat first | refine cons ?_ | refine same rfl ?_
  exact nil

instance : AllAgree I J times := by
  unfold times
  repeat refine same rfl ?_
  exact nil

instance : AllAgree I J hooks := by
  unfold hooks
  repeat first | refine cons ?_ | refine same rfl ?_
  exact nil

instance : AllAgree I J inert := by
  unfold inert
  repeat refine same rfl ?_
  exact nil

instance : AllAgree I J editing := by
  unfold editing
  repeat refine same rfl ?_
  exact nil

instance : AllAgree I J motion := by
  unfold motion
  repeat refine same rfl ?_
  exact nil

instance : AllAgree I J buffers := by
  unfold buffers
  repeat refine same rfl ?_
  exact nil

instance : AllAgree I J keymaps := by
  unfold keymaps
  repeat refine same rfl ?_
  exact nil

instance : AllAgree I J windows := by
  unfold windows
  repeat refine same rfl ?_
  exact nil

instance : AllAgree I J timers := by
  unfold timers
  repeat refine same rfl ?_
  exact nil

instance : AllAgree I J searches := by
  unfold searches
  repeat first | refine cons ?_ | refine same rfl ?_
  exact nil

instance : AllAgree I J files := by
  unfold files
  repeat refine same rfl ?_
  exact nil

instance : AllAgree I J loading := by
  unfold loading
  repeat first | refine cons ?_ | refine same rfl ?_
  exact nil

instance : AllAgree I J grid := by
  unfold grid
  repeat refine same rfl ?_
  exact nil

instance : AllAgree I J commands := by
  unfold commands
  repeat refine cons ?_
  exact nil

instance : AllAgree I J modes := by
  unfold modes
  repeat refine same rfl ?_
  exact nil

instance allAgree_primitives : AllAgree I J primitives := by
  unfold primitives
  infer_instance

theorem agrees_of_primitive? {name : String} {p : Primitive} (found : primitive? name = some p)
    (args : List Value) : Agrees (p I args) (p J args) :=
  (allAgree_primitives I J).all _ (mem_of_lookup found) args

/-- Special forms that agree with themselves under another interpreter. -/
def FormsAgree (I J : Interp) (table : List (String × SpecialForm)) : Prop :=
  ∀ e ∈ table, ∀ forms frame, Agrees (e.2 I forms frame) (e.2 J forms frame)

theorem FormsAgree.cons {I J : Interp} {name : String} {form : SpecialForm}
    {rest : List (String × SpecialForm)}
    [first : ∀ forms frame, Agrees (form I forms frame) (form J forms frame)]
    (others : FormsAgree I J rest) : FormsAgree I J ((name, form) :: rest) :=
  List.forall_mem_cons.mpr ⟨first, others⟩

theorem FormsAgree.same {I J : Interp} {name : String} {form : SpecialForm}
    {rest : List (String × SpecialForm)} (first : form I = form J)
    (others : FormsAgree I J rest) : FormsAgree I J ((name, form) :: rest) :=
  List.forall_mem_cons.mpr
    ⟨fun forms frame => of_eq (congrFun (congrFun first forms) frame), others⟩

theorem formsAgree_specialForms : FormsAgree I J specialForms := by
  unfold specialForms
  repeat first | refine .cons ?_ | refine .same rfl ?_
  exact List.forall_mem_nil _

theorem agrees_of_specialForm? {name : String} {form : SpecialForm}
    (found : specialForm? name = some form) (forms : List Value) (frame : Nat) :
    Agrees (form I forms frame) (form J forms frame) :=
  formsAgree_specialForms I J _ (mem_of_lookup found) forms frame

end Tables

/-! ## One level of the interpreter -/

section Level

variable {I J : Interp} [I.Agrees J] (args forms : List Value) (frame : Nat)

instance agrees_callPrimitive (name : String) :
    Agrees (callPrimitive I name args) (callPrimitive J name args) := by
  unfold callPrimitive
  split
  next p found => exact agrees_of_primitive? I J found args
  next => infer_instance

instance agrees_evalNamed (name : String) :
    Agrees (evalNamed I name forms frame) (evalNamed J name forms frame) := by
  unfold evalNamed
  refine after fun s => branch ?_ ?_
  · rw [s.function?_eq (I := I) (J := J)]
    split <;> infer_instance
  · split
    next form found => exact agrees_of_specialForm? I J found forms frame
    next =>
      split
      next p found => exact after fun args => agrees_of_primitive? I J found args
      next => infer_instance

instance agrees_evalCall (form : Value) : Agrees (evalCall I form frame) (evalCall J form frame) := by
  unfold evalCall
  refine after fun head => after fun tail => after fun forms => ?_
  split <;> infer_instance

instance agrees_evalForm (form : Value) : Agrees (evalForm I form frame) (evalForm J form frame) where
  agrees s := by
    unfold evalForm
    split
    next => exact .inr rfl
    next =>
      cases form with
      | cons ref =>
          have called : Agrees
              ((evalCall I (.cons ref) frame).ensuring fun s => { s with depth := s.depth - 1 })
              ((evalCall J (.cons ref) frame).ensuring fun s => { s with depth := s.depth - 1 }) :=
            inferInstance
          exact called.agrees _
      | _ => exact .inr rfl

instance agrees_applyValue (function : Value) :
    Agrees (applyValue I function args) (applyValue J function args) := by
  unfold applyValue
  simp only [Session.function?_eq (I := I) (J := J)]
  split
  · infer_instance
  · infer_instance
  · infer_instance
  · refine after fun s => ?_
    split <;> infer_instance
  · refine after fun s => ?_
    split <;> infer_instance
  · infer_instance
  · infer_instance
  · infer_instance

theorem agrees_answer (request : Request) : Agrees (answer I request) (answer J request) := by
  cases request with
  | eval form frame => exact agrees_evalForm frame form
  | apply function args => exact agrees_applyValue args function

end Level

/-! ## All levels -/

/-- More levels never change an answer. -/
theorem agrees_atLevel {level level' : Nat} (le : level ≤ level') (request : Request) :
    Agrees (atLevel level request) (atLevel level' request) := by
  induction level generalizing level' request with
  | zero => exact unfinished _
  | succ level ih =>
      obtain ⟨level', rfl⟩ := Nat.exists_eq_add_of_le' le
      have below : level ≤ level' + level := Nat.le_add_left ..
      have levels : Interp.Agrees ⟨level, atLevel level, isPrimitive⟩
          ⟨level' + level, atLevel (level' + level), isPrimitive⟩ :=
        ⟨below, ih below, rfl⟩
      exact agrees_answer request

theorem agrees_ofLevel {level level' : Nat} (le : level ≤ level') :
    (Interp.ofLevel level).Agrees (.ofLevel level') :=
  ⟨le, agrees_atLevel le, rfl⟩

/-- How the evaluation of a form ends, whatever number of levels that takes. -/
def Interp.Ends (form : Value) (frame : Nat) (s : Session) (o : Outcome Value) : Prop :=
  ∃ level, (Interp.ofLevel level).eval form frame s = o ∧ o ≠ .unfinished

namespace Interp.Ends

variable {form form' : Value} {frame frame' level : Nat} {s s' : Session} {o o' : Outcome Value}

theorem of_eq (ended : (Interp.ofLevel level).eval form frame s = o) (finished : o ≠ .unfinished) :
    Ends form frame s o :=
  ⟨level, ended, finished⟩

/-- With more levels an evaluation still ends like that. -/
theorem eval_eq (ends : Ends form frame s o) :
    ∃ least, ∀ level ≥ least, (Interp.ofLevel level).eval form frame s = o := by
  obtain ⟨least, rfl, finished⟩ := ends
  refine ⟨least, fun level enough => ?_⟩
  have := agrees_ofLevel enough
  exact eq_of_finished finished

/-- An evaluation ends in one way only. -/
theorem unique (ends : Ends form frame s o) (ends' : Ends form frame s o') : o = o' := by
  obtain ⟨least, same⟩ := ends.eval_eq
  obtain ⟨least', same'⟩ := ends'.eval_eq
  rw [← same _ (Nat.le_max_left least least'), same' _ (Nat.le_max_right least least')]

/-- What one form needs some levels for ends likewise for another one, with other levels. -/
theorem of_agrees (ends : Ends form frame s o)
    (enough : ∀ level, ∃ level', ((Interp.ofLevel level).eval form frame s).Agrees
      ((Interp.ofLevel level').eval form' frame' s')) :
    Ends form' frame' s' o := by
  obtain ⟨level, rfl, finished⟩ := ends
  obtain ⟨level', same⟩ := enough level
  exact ⟨level', same.resolve_left finished, finished⟩

end Interp.Ends

/-- How the application of a function ends, whatever number of levels that takes. -/
def Interp.Applies (function : Value) (args : List Value) (s : Session) (o : Outcome Value) :
    Prop :=
  ∃ level, (Interp.ofLevel level).apply function args s = o ∧ o ≠ .unfinished

/-- With more levels an application still ends like that. -/
theorem Interp.Applies.apply_eq {function : Value} {args : List Value} {s : Session}
    {o : Outcome Value} (applies : Applies function args s o) :
    ∃ least, ∀ level ≥ least, (Interp.ofLevel level).apply function args s = o := by
  obtain ⟨least, rfl, finished⟩ := applies
  refine ⟨least, fun level enough => ?_⟩
  have := agrees_ofLevel enough
  exact eq_of_finished finished

/-- A primitive is applied by its name. -/
theorem Interp.Applies.of_primitive? {name : String} {p : Primitive} {args : List Value}
    {s : Session} {o : Outcome Value} (found : primitive? name = some p)
    (ended : ∀ I, p I args s = o) (finished : o ≠ .unfinished) : Applies (.subr name) args s o := by
  refine ⟨1, ?_, finished⟩
  rw [apply_subr found 0, ended]

/-- An application ends in one way only. -/
theorem Interp.Applies.unique {function : Value} {args : List Value} {s : Session}
    {o o' : Outcome Value} (applies : Applies function args s o)
    (applies' : Applies function args s o') : o = o' := by
  obtain ⟨least, same⟩ := applies.apply_eq
  obtain ⟨least', same'⟩ := applies'.apply_eq
  rw [← same _ (Nat.le_max_left least least'), same' _ (Nat.le_max_right least least')]

end EditorLisp
