import EditorLisp.Forms.Control
import EditorLisp.Forms.Definition
import EditorLisp.Proofs.Evaluation.Functions

/-!
# Control, definitions and excursions

Loops go by induction on what they count down.  An excursion puts its buffer, point or
windows back into a session that its body may have left by any way out, so the way back
has to keep the workspace in order by itself.
-/

namespace EditorLisp.Forms

open Eval Eval.Restores

variable (I : Interp) [I.Restores] (forms : List Value) (frame : Nat)

/-! ## Assignment -/

instance (store : String → Value → Eval Unit) [∀ name value, Restores (store name value)]
    (last : Value) : Restores (assignPairs I frame store last forms) := by
  fun_induction assignPairs with
  | case1 => infer_instance
  | case2 => infer_instance

instance (name : String) (store : Nat → String → Value → Eval Unit)
    [∀ frame name value, Restores (store frame name value)] :
    Restores (assignment name store I forms frame) := by
  unfold assignment
  infer_instance

instance : Restores (setq I forms frame) := by
  unfold setq
  infer_instance

instance : Restores (setqLocal I forms frame) := by
  unfold setqLocal
  infer_instance

instance : Restores (setqDefault I forms frame) := by
  unfold setqDefault
  infer_instance

/-! ## Conditionals -/

instance : Restores (ifForm I forms frame) := by
  unfold ifForm
  split <;> infer_instance

instance (name : String) (expected : Bool) : Restores (guarded name expected I forms frame) := by
  unfold guarded
  split <;> infer_instance

instance : Restores (condClauses I frame forms) := by
  induction forms with
  | nil => exact pure _
  | cons clause rest ih =>
      unfold condClauses
      refine after fun _ => ?_
      split <;> infer_instance

instance : Restores (Forms.cond I forms frame) := by
  unfold Forms.cond
  infer_instance

instance (last : Value) : Restores (andForms I frame last forms) := by
  induction forms generalizing last with
  | nil => exact pure _
  | cons form rest ih =>
      unfold andForms
      infer_instance

instance : Restores (andForm I forms frame) := by
  unfold andForm
  infer_instance

instance : Restores (orForms I frame forms) := by
  induction forms with
  | nil => exact pure _
  | cons form rest ih =>
      unfold orForms
      infer_instance

instance : Restores (orForm I forms frame) := by
  unfold orForm
  infer_instance

instance (key : Value) : Restores (caseClauses I frame key forms) := by
  induction forms with
  | nil => exact pure _
  | cons clause rest ih =>
      unfold caseClauses
      infer_instance

instance : Restores (clCase I forms frame) := by
  unfold clCase
  infer_instance

/-! ## Sequences and loops -/

instance : Restores (progn I forms frame) := by
  unfold progn
  infer_instance

instance : Restores (prog1 I forms frame) := by
  unfold prog1
  infer_instance

instance : Restores (prog2 I forms frame) := by
  unfold prog2
  infer_instance

instance (test : Value) (body : List Value) (fuel : Nat) :
    Restores (whileLoop I frame test body fuel) := by
  induction fuel with
  | zero => exact unfinished
  | succ fuel ih =>
      unfold whileLoop
      infer_instance

instance : Restores (whileForm I forms frame) := by
  unfold whileForm
  infer_instance

instance (var : String) (body : List Value) (rounds : Nat) (i : Int64) (last : Value) :
    Restores (countLoop I frame var body rounds i last) := by
  induction rounds generalizing i last with
  | zero => exact pure _
  | succ rounds ih =>
      unfold countLoop
      infer_instance

instance : Restores (dotimes I forms frame) := by
  unfold dotimes
  repeat refine after fun _ => ?_
  split <;> infer_instance

instance (var : String) (body : List Value) (last : Value) (items : List Value) :
    Restores (itemLoop I frame var body last items) := by
  induction items generalizing last with
  | nil => exact pure _
  | cons item rest ih =>
      unfold itemLoop
      infer_instance

instance : Restores (dolist I forms frame) := by
  unfold dolist
  repeat refine after fun _ => ?_
  split <;> infer_instance

/-! ## Bindings -/

instance : Restores (lambda I forms frame) := by
  unfold lambda
  infer_instance

instance (spec : Value) : Restores (bindings spec) := by
  unfold bindings
  refine after fun items => each (fun item => ?_) items
  split <;> infer_instance

instance (form : Option Value) : Restores (initial I frame form) := by
  unfold initial
  split <;> infer_instance

instance (dynamic lexical : List (String × Value)) (rest : List (String × Option Value)) :
    Restores (letValues I frame dynamic lexical rest) := by
  induction rest generalizing dynamic lexical with
  | nil => exact pure _
  | cons binding rest ih =>
      unfold letValues
      infer_instance

instance : Restores (letForm I forms frame) := by
  unfold letForm
  split <;> infer_instance

instance (body : List Value) (rest : List (String × Option Value)) :
    Restores (letSequence I frame body rest) := by
  induction rest with
  | nil => exact evalBody I frame body
  | cons binding rest ih =>
      unfold letSequence
      infer_instance

instance : Restores (letStar I forms frame) := by
  unfold letStar
  split <;> infer_instance

/-! ## Non-local exits -/

instance : Restores (catchForm I forms frame) := by
  unfold catchForm
  repeat refine after fun _ => ?_
  split <;> infer_instance

instance : Restores (unwindProtect I forms frame) := by
  unfold unwindProtect
  repeat refine after fun _ => ?_
  split <;> infer_instance

instance (handler : Value) (var : String) (value : Value) :
    Restores (runHandler I frame handler var value) := by
  unfold runHandler
  infer_instance

instance : Restores (conditionCase I forms frame) := by
  unfold conditionCase
  dsimp only
  repeat refine after fun _ => ?_
  split
  · infer_instance
  · refine after fun ended => ?_
    split <;> refine after fun _ => ?_ <;> split <;> infer_instance

instance : Restores (ignoreErrors I forms frame) := by
  unfold ignoreErrors
  refine after fun ended => ?_
  split <;> infer_instance

instance : Restores (clAssert I forms frame) := by
  unfold clAssert
  infer_instance

instance : Restores (skipped I forms frame) := pure _

/-! ## Definitions -/

instance (expands : Bool) : Restores (defun expands I forms frame) := by
  unfold defun
  infer_instance

instance (always : Bool) : Restores (declareVariable I frame always forms) := by
  unfold declareVariable
  repeat refine after fun _ => ?_
  split <;> infer_instance

instance (always : Bool) : Restores (defvar always I forms frame) := by
  unfold defvar
  infer_instance

instance : Restores (defvarLocal I forms frame) := by
  unfold defvarLocal
  infer_instance

instance : Restores (defalias I forms frame) := by
  unfold defalias
  dsimp only
  refine after fun _ => after fun quoted => ?_
  split
  · infer_instance
  · split <;> infer_instance

instance : Restores (defface I forms frame) := by
  unfold defface
  infer_instance

/-! ## Excursions -/

instance : Restores (saveExcursion I forms frame) := by
  unfold saveExcursion
  infer_instance

instance : Restores (saveCurrentBuffer I forms frame) := by
  unfold saveCurrentBuffer
  infer_instance

instance : Restores (withCurrentBuffer I forms frame) := by
  unfold withCurrentBuffer
  infer_instance

instance : Restores (withTempBuffer I forms frame) := by
  unfold withTempBuffer
  infer_instance

instance : Restores (saveMatchData I forms frame) := by
  unfold saveMatchData
  infer_instance

instance : Restores (saveWindowExcursion I forms frame) := by
  unfold saveWindowExcursion
  infer_instance

instance : Restores (saveSelectedWindow I forms frame) := by
  unfold saveSelectedWindow
  infer_instance

end EditorLisp.Forms
