import EditorLisp.Forms.Mode
import EditorLisp.Proofs.Primitives.Functions

/-!
# Definitions of modes

A definition of a mode declares variables, puts a command together and evaluates the
options it is given.  Only the options run code of the program.
-/

namespace EditorLisp

open Eval Eval.Restores Primitives

section Modes

namespace Forms

variable (I : Interp) [I.Restores] (frame : Nat) (forms : List Value)

instance (name : String) (value : Value) : Restores (declareWith name value) where
  restores s wf := by
    unfold declareWith Eval.modify
    dsimp only
    split <;> exact .of_aside wf ⟨rfl, rfl, rfl, rfl, rfl, rfl, rfl⟩

instance (function : String) : Restores (callForm function forms) := Restores.list _

instance (v : Value) : Restores (quoted v) := by
  unfold quoted
  infer_instance

instance (parent : Value) : Restores (parentCall parent) := by
  unfold parentCall
  infer_instance

/-- The command of a major mode is put together from calls that are only written down. -/
instance : Restores (defineDerivedMode I forms frame) := by
  unfold defineDerivedMode
  dsimp only
  refine after fun _ => after fun name => ?_
  split
  · repeat refine after fun _ => ?_
    infer_instance
  · repeat refine after fun _ => ?_
    infer_instance

instance (mode : Value) : Restores (newState mode) := by
  unfold newState
  dsimp only
  refine after fun missing => after fun toggle => after fun same => after fun either => ?_
  infer_instance

instance : Restores (defineMinorMode I forms frame) := by
  unfold defineMinorMode
  dsimp only
  refine after fun _ => after fun name => ?_
  -- There may be a form for the initial value, and one for the keymap.
  split
  all_goals
    refine after fun init => after fun _ => after fun _ => ?_
    split
  all_goals
    repeat refine after fun _ => ?_
    infer_instance

instance (options : List (String × Value)) (o : KeymapOptions) :
    Restores (keymapOptions I frame options o) := by
  induction options generalizing o with
  | nil => exact Restores.pure _
  | cons option rest ih =>
      unfold keymapOptions
      infer_instance

instance (map : Value) : Restores (bindKeys I frame map forms) := by
  fun_induction bindKeys I frame map forms with
  | case1 keyForm form rest ih =>
      refine after fun spec => ?_
      split <;> infer_instance
  | case2 => infer_instance

instance : Restores (defvarKeymap I forms frame) := by
  unfold defvarKeymap
  dsimp only
  refine after fun _ => after fun name => after fun o => ?_
  infer_instance

instance : Restores (easyMenuDefine I forms frame) := by
  unfold easyMenuDefine
  infer_instance

end Forms

namespace Primitives

variable (I : Interp) [I.Restores] (args : List Value)

instance : Restores (derivedModeP I args) := by
  unfold derivedModeP
  dsimp only
  refine after fun _ => ?_
  split <;> infer_instance

instance : AllRestore I modes := by
  unfold modes
  repeat refine .cons ?_
  exact .nil

end Primitives

end Modes

end EditorLisp
