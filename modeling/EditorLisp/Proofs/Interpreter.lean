import EditorLisp.Program
import EditorLisp.Proofs.Evaluation.Call
import EditorLisp.Proofs.Forms.Control
import EditorLisp.Proofs.Forms.Data
import EditorLisp.Proofs.Forms.Mode
import EditorLisp.Proofs.Primitives.Outside

/-!
# What running a program puts back

Each level of the interpreter puts back what it changed if the level below does, so by
induction on the number of levels every level does.  A program then leaves the depth of
evaluation, the features being loaded and the order of the workspace as they were, whatever
its text and however it ends.
-/

namespace EditorLisp

open Eval Eval.Restores

/-! ## The tables -/

section Tables

variable (I : Interp) [I.Restores]

instance allRestore_primitives : AllRestore I primitives := by
  unfold primitives
  infer_instance

theorem restores_of_primitive? {name : String} {p : Primitive} (found : primitive? name = some p)
    (args : List Value) : Restores (p I args) :=
  (allRestore_primitives I).all _ (mem_of_lookup found) args

/-- Special forms that put back what they changed. -/
def FormsRestore (I : Interp) (table : List (String × SpecialForm)) : Prop :=
  ∀ e ∈ table, ∀ forms frame, Restores (e.2 I forms frame)

theorem FormsRestore.cons {I : Interp} {name : String} {form : SpecialForm}
    {rest : List (String × SpecialForm)} [first : ∀ forms frame, Restores (form I forms frame)]
    (others : FormsRestore I rest) : FormsRestore I ((name, form) :: rest) :=
  List.forall_mem_cons.mpr ⟨first, others⟩

theorem formsRestore_specialForms : FormsRestore I specialForms := by
  unfold specialForms
  repeat refine .cons ?_
  exact List.forall_mem_nil _

theorem restores_of_specialForm? {name : String} {form : SpecialForm}
    (found : specialForm? name = some form) (forms : List Value) (frame : Nat) :
    Restores (form I forms frame) :=
  formsRestore_specialForms I _ (mem_of_lookup found) forms frame

end Tables

/-! ## One level of the interpreter -/

section Level

variable (I : Interp) [I.Restores] (args forms : List Value) (frame : Nat)

instance restores_callPrimitive (name : String) : Restores (callPrimitive I name args) := by
  unfold callPrimitive
  split
  next p found => exact restores_of_primitive? I found args
  next => infer_instance

instance restores_evalNamed (name : String) : Restores (evalNamed I name forms frame) := by
  unfold evalNamed
  refine after fun s => branch ?_ ?_
  · split <;> infer_instance
  · split
    next form found => exact restores_of_specialForm? I found forms frame
    next =>
      split
      next p found => exact after fun args => restores_of_primitive? I found args
      next => infer_instance

instance restores_evalCall (form : Value) : Restores (evalCall I form frame) := by
  unfold evalCall
  refine after fun head => after fun tail => after fun forms => ?_
  split <;> infer_instance

/-- A call is evaluated one deeper, and the depth goes back however the call ends. -/
instance restores_evalForm (form : Value) : Restores (evalForm I form frame) where
  restores s wf := by
    unfold evalForm
    split
    next => exact restores s wf
    next =>
      cases form with
      | symbol name =>
          dsimp only
          split
          · exact Session.Kept.refl wf
          · exact restores s wf
      | cons ref =>
          have called := restores (m := evalCall I (.cons ref) frame)
            { s with depth := s.depth + 1 } wf
          refine leaves_ensuring called fun s' inside =>
            ⟨⟨?_, inside.loading_eq, inside.wellFormed⟩, inside.retains, inside.evolves,
              inside.develops, inside.passes.clock_le, inside.passes.changed⟩
          have one_deeper : s'.depth = s.depth + 1 := inside.depth_eq
          show s'.depth - 1 = s.depth
          rw [one_deeper, Nat.add_sub_cancel]
      | _ => exact Session.Kept.refl wf

instance restores_applyValue (function : Value) : Restores (applyValue I function args) := by
  unfold applyValue
  split
  · infer_instance
  · infer_instance
  · infer_instance
  · refine after fun s => ?_
    split <;> infer_instance
  · refine after fun s => ?_
    split <;> infer_instance
  · infer_instance
  · infer_instance
  · infer_instance

theorem restores_answer (request : Request) : Restores (answer I request) := by
  cases request with
  | eval form frame => exact restores_evalForm I frame form
  | apply function args => exact restores_applyValue I args function

end Level

/-! ## Whole programs -/

theorem restores_atLevel (level : Nat) (request : Request) : Restores (atLevel level request) := by
  induction level generalizing request with
  | zero => exact Restores.unfinished
  | succ level ih =>
      have below : Interp.Restores ⟨level, atLevel level, isPrimitive⟩ := ⟨ih⟩
      exact restores_answer _ request

instance restores_ofLevel (level : Nat) : (Interp.ofLevel level).Restores :=
  ⟨restores_atLevel level⟩

instance restores_top : Interp.top.Restores := restores_ofLevel Interp.topLevel

instance restores_evalAll (forms : List Value) : Restores (evalAll forms) := by
  unfold evalAll
  infer_instance

instance restores_evalSource (source : String) : Restores (evalSource source) := by
  unfold evalSource
  split <;> infer_instance

/-- However a program ends, with a value, with a text that cannot be read or by another way
out, the depth of evaluation and the features being loaded are those of before and the
workspace is in order again: a window is selected, every window shows a live buffer, the
names and the buffers are inverse to each other, and every point lies in its text.  That
the workspace was in order before says as well that the numbers to be given out next are
free, which holds of every workspace that was made by editing. -/
theorem restored_evalSource (source : String) {s : Session} (inOrder : s.workspace.WellFormed) :
    (∀ result s', evalSource source s = .ok result s' → s.Restored s') ∧
      ∀ flow s', evalSource source s = .exit flow s' → s.Restored s' := by
  have ended := (restores_evalSource source).restores s inOrder
  constructor
  · intro result s' returned
    rw [returned] at ended
    exact ended.toRestored
  · intro flow s' left
    rw [left] at ended
    exact ended.toRestored

/-- A program that asks for a variable without a value is left by a signal. -/
theorem restored_evalSource_void :
    ∃ flow s', evalSource "x" {} = .exit flow s' ∧ ({} : Session).Restored s' := by
  have read : Source.readSource "x" = .ok [.symbol "x"] := rfl
  have level : Interp.topLevel = 4611686018427387903 + 1 := by decide
  have left : evalSource "x" {} = .exit (.signal "void-variable" (.cons 0))
      { store := { pairs := #[⟨.symbol "x", .nil⟩] } } := by
    unfold evalSource
    rw [read]
    simp only [evalAll, Interp.top, Interp.ofLevel]
    rw [level]
    rfl
  exact ⟨_, _, left, (restored_evalSource "x" Workspace.wellFormed_initial).2 _ _ left⟩

/-- Windows that are listed in the order of their numbers, as those of a new session are, stay
so under any program. -/
theorem ordered_evalSource (source : String) {s : Session} (inOrder : s.workspace.WellFormed)
    (ordered : s.workspace.windows.Ordered) :
    (evalSource source s).Leaves fun t => t.workspace.windows.Ordered :=
  ((restores_evalSource source).restores s inOrder).mono fun _ kept => kept.evolves.ordered ordered

end EditorLisp
