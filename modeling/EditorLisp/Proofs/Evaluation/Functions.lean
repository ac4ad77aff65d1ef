import EditorLisp.Evaluation.Arguments
import EditorLisp.Primitives.String
import EditorLisp.Proofs.Evaluation.Restores

/-!
# Variables, functions and arguments

Bindings are undone and calls come back: what the parts of the interpreter that special
forms and primitives share do to a session they put back, given that the interpreter they
call does.
-/

namespace EditorLisp

/-! ## Variables -/

namespace Session

/-- A buffer that a variable is set in keeps its text. -/
theorem kept_setLocal {s : Session} (wf : s.workspace.WellFormed) (buffer : Nat)
    (name : String) (value : Value) : s.Kept (s.setLocal buffer name value) :=
  have wf' := Workspace.wellFormed_modifyBuffer wf fun b _ => Buffer.edited_setLocal b name value
  .of_workspace wf' Workspace.evolves_modifyBuffer

theorem kept_setOuter {s : Session} (wf : s.workspace.WellFormed) (name : String)
    (value : Value) : s.Kept (s.setOuter name value) := by
  obtain ⟨_, id, _, -, -, -, same⟩ := Workspace.current_of_wellFormed wf
  unfold setOuter
  rw [same]
  simp only
  split
  · exact kept_setLocal wf id name value
  · exact .of_aside wf ⟨rfl, rfl, rfl, rfl, rfl, rfl, rfl⟩

theorem kept_bindSpecial {s : Session} (wf : s.workspace.WellFormed) (name : String)
    (value : Value) : s.Kept (s.bindSpecial name value).2 := by
  unfold bindSpecial
  split
  · exact kept_setLocal wf _ name value
  · exact .of_aside wf ⟨rfl, rfl, rfl, rfl, rfl, rfl, rfl⟩

theorem kept_bindSpecials {s : Session} (wf : s.workspace.WellFormed)
    (bindings : List (String × Value)) : s.Kept (s.bindSpecials bindings).2 := by
  let bind (state : List SavedBinding × Session) (b : String × Value) :=
    ((state.2.bindSpecial b.1 b.2).1 :: state.1, (state.2.bindSpecial b.1 b.2).2)
  have all (bindings : List (String × Value)) (state : List SavedBinding × Session)
      (wf : state.2.workspace.WellFormed) : state.2.Kept (bindings.foldl bind state).2 := by
    induction bindings generalizing state with
    | nil => exact Kept.refl wf
    | cons b rest ih =>
        have first := kept_bindSpecial wf b.1 b.2
        exact first.trans (ih (bind state b) first.wellFormed)
  exact all bindings ([], s) wf

theorem kept_undoBinding {s : Session} (wf : s.workspace.WellFormed) (saved : SavedBinding) :
    s.Kept (s.undoBinding saved) := by
  unfold undoBinding
  split
  · exact .of_aside wf ⟨rfl, rfl, rfl, rfl, rfl, rfl, rfl⟩
  · split
    · exact kept_setLocal wf _ _ _
    · exact Kept.refl wf

theorem kept_undoBindings {s : Session} (wf : s.workspace.WellFormed)
    (saved : List SavedBinding) : s.Kept (s.undoBindings saved) := by
  induction saved generalizing s with
  | nil => exact Kept.refl wf
  | cons binding rest ih =>
      have first := kept_undoBinding wf binding
      exact first.trans (ih first.wellFormed)

namespace RestoredBy

instance setGlobal {f : Session → Session} [before : RestoredBy f] (name : Session → String)
    (value : Session → Value) : RestoredBy fun s => (f s).setGlobal (name s) (value s) :=
  ⟨fun s wf =>
    have first := before.kept s wf
    first.trans (.of_aside first.wellFormed ⟨rfl, rfl, rfl, rfl, rfl, rfl, rfl⟩)⟩

instance declareSpecial {f : Session → Session} [before : RestoredBy f]
    (name : Session → String) : RestoredBy fun s => (f s).declareSpecial (name s) :=
  ⟨fun s wf =>
    have first := before.kept s wf
    first.trans (.of_aside first.wellFormed ⟨rfl, rfl, rfl, rfl, rfl, rfl, rfl⟩)⟩

instance setOuter (name : String) (value : Value) : RestoredBy fun s => s.setOuter name value :=
  ⟨fun _ wf => kept_setOuter wf name value⟩

instance undoBindings (saved : List SavedBinding) : RestoredBy fun s => s.undoBindings saved :=
  ⟨fun _ wf => kept_undoBindings wf saved⟩

end RestoredBy

end Session

/-- An interpreter that puts back what it changed, whatever it is asked. -/
class Interp.Restores (I : Interp) : Prop where
  call : ∀ request, Eval.Restores (I.call request)

namespace Eval.Restores

variable {α : Type}

instance setVariable (name : String) (value : Value) (frame : Nat) :
    Restores (Eval.setVariable name value frame) := by
  unfold Eval.setVariable
  split
  · infer_instance
  · refine after fun s => ?_
    simp only
    split <;> infer_instance

/-- Bindings made before a step are undone after it. -/
instance withDynamic (bindings : List (String × Value)) {m : Eval α} [body : Restores m] :
    Restores (Eval.withDynamic bindings m) := by
  cases bindings with
  | nil => exact body
  | cons b rest =>
      refine ⟨fun s wf => ?_⟩
      have bound := Session.kept_bindSpecials wf (b :: rest)
      have run : Restores (m.ensuring (·.undoBindings (s.bindSpecials (b :: rest)).1)) :=
        inferInstance
      exact (run.restores _ bound.wellFormed).mono fun _ => bound.trans

/-! ## Forms -/

section Forms

variable (I : Interp) [below : I.Restores]

instance eval (form : Value) (frame : Nat) : Restores (I.eval form frame) := below.call _

instance apply (function : Value) (args : List Value) : Restores (I.apply function args) :=
  below.call _

instance evalBody (frame : Nat) (forms : List Value) : Restores (I.evalBody frame forms) := by
  induction forms with
  | nil => exact pure _
  | cons form rest ih =>
      cases rest with
      | nil => exact eval I form frame
      | cons next rest => exact after fun _ => ih

instance evalArgs (frame : Nat) (forms : List Value) : Restores (I.evalArgs frame forms) := by
  induction forms with
  | nil => exact pure _
  | cons form rest ih =>
      unfold Interp.evalArgs
      infer_instance

end Forms

/-! ## Functions -/

instance parameters (spec : Value) : Restores (Eval.parameters spec) := by
  unfold Eval.parameters
  infer_instance

instance closureOf (spec : Value) (frame : Nat) (name : Option String) :
    Restores (Eval.closureOf spec frame name) := by
  unfold Eval.closureOf
  repeat refine after fun _ => ?_
  split <;> infer_instance

instance makeClosure (spec : Value) (frame : Nat) (name : Option String) :
    Restores (Eval.makeClosure spec frame name) := by
  unfold Eval.makeClosure
  infer_instance

instance defineFunction (name : String) (definition : Value) :
    Restores (Eval.defineFunction name definition) := by
  unfold Eval.defineFunction
  infer_instance

instance sequenceElements (v : Value) : Restores (Eval.sequenceElements v) := by
  unfold Eval.sequenceElements
  split <;> infer_instance

instance formArity (name : String) (forms : List Value) (minimum : Nat) (maximum : Option Nat) :
    Restores (Eval.formArity name forms minimum maximum) := by
  unfold Eval.formArity
  infer_instance

section Calls

variable (I : Interp) [I.Restores]

instance applyClosure (c : Closure) (args : List Value) :
    Restores (Eval.applyClosure I c args) := by
  unfold Eval.applyClosure
  simp only
  split
  · infer_instance
  · split <;> infer_instance

instance expandOnce (form : Value) : Restores (Eval.expandOnce I form) := by
  unfold Eval.expandOnce
  refine after fun s => ?_
  split
  · infer_instance
  · split
    · split <;> infer_instance
    · infer_instance

end Calls

/-! ## Arguments -/

section Arguments

variable (name : String) (args : List Value) (v : Value)

instance exactly (n : Nat) : Restores (Eval.exactly name args n) := by
  unfold Eval.exactly
  infer_instance

instance atLeast (minimum : Nat) : Restores (Eval.atLeast name args minimum) := by
  unfold Eval.atLeast
  infer_instance

instance atMost (maximum : Nat) : Restores (Eval.atMost name args maximum) := by
  unfold Eval.atMost
  infer_instance

instance between (minimum maximum : Nat) : Restores (Eval.between name args minimum maximum) := by
  unfold Eval.between
  infer_instance

instance integer : Restores (Eval.integer v) := by
  unfold Eval.integer
  split <;> infer_instance

instance number : Restores (Eval.number v) := by
  unfold Eval.number
  split <;> infer_instance

instance natural : Restores (Eval.natural v) := by
  unfold Eval.natural
  split <;> infer_instance

instance string : Restores (Eval.string v) := by
  unfold Eval.string
  split <;> infer_instance

instance integerOr (default : Int64) (v : Option Value) : Restores (Eval.integerOr default v) := by
  unfold Eval.integerOr
  split <;> infer_instance

instance naturalOr (default : Nat) (v : Option Value) : Restores (Eval.naturalOr default v) := by
  unfold Eval.naturalOr
  split <;> infer_instance

instance string? (v : Option Value) : Restores (Eval.string? v) := by
  unfold Eval.string?
  split <;> infer_instance

instance liveBuffer : Restores (Eval.liveBuffer v) := by
  unfold Eval.liveBuffer
  split
  · infer_instance
  · infer_instance
  · refine after fun w => ?_
    split <;> infer_instance
  · infer_instance

instance below (n : Int64) : Restores (Eval.below n) := by
  unfold Eval.below
  infer_instance

instance elementCount : Restores (Eval.elementCount v) := by
  unfold Eval.elementCount
  infer_instance

instance bool (b : Bool) : Restores (Eval.bool b) := pure _

instance pattern (source : String) (fold : Bool) : Restores (Eval.pattern source fold) := by
  unfold Eval.pattern
  refine after fun s => ?_
  split <;> infer_instance

instance searchPattern (source : String) : Restores (Eval.searchPattern source) := by
  unfold Eval.searchPattern
  infer_instance

end Arguments

end Eval.Restores

end EditorLisp
