import EditorLisp.Primitives
import EditorLisp.Proofs.Evaluation.Agrees
import EditorLisp.Proofs.Interpreter

/-!
# Primitives agree if the interpreters do

Most primitives ask nothing of the interpreter.  Here are the others: those that call
functions, load files or ask what names stand for.
-/

namespace EditorLisp

open Eval Eval.Agrees

variable {I J : Interp} [levels : I.Agrees J] (args items : List Value) (v function : Value)

namespace Primitives

/-! ## Functions of functions -/

instance : Agrees (funcall I args) (funcall J args) := by
  unfold funcall
  infer_instance

instance : Agrees (applyList I args) (applyList J args) := by
  unfold applyList
  refine after fun _ => ?_
  split <;> infer_instance

instance : Agrees (mapValues I function items) (mapValues J function items) := by
  induction items with
  | nil => exact refl _
  | cons item rest ih =>
      unfold mapValues
      infer_instance

instance : Agrees (mapSequence I function v) (mapSequence J function v) := by
  unfold mapSequence
  infer_instance

instance (name : String) : Agrees (mapping name I args) (mapping name J args) := by
  unfold mapping
  infer_instance

instance : Agrees (mapc I args) (mapc J args) := by
  unfold mapc
  infer_instance

instance : Agrees (mapcan I args) (mapcan J args) := by
  unfold mapcan
  infer_instance

instance : Agrees (mapconcat I args) (mapconcat J args) := by
  unfold mapconcat
  infer_instance

instance : Agrees (Primitives.evalForm I args) (Primitives.evalForm J args) := by
  unfold Primitives.evalForm
  infer_instance

theorem agrees_expandAll {fuel fuel' : Nat} (le : fuel ≤ fuel') (form : Value) :
    Agrees (expandAll I fuel form) (expandAll J fuel' form) := by
  induction fuel generalizing fuel' form with
  | zero => exact unfinished _
  | succ fuel ih =>
      obtain ⟨fuel', rfl⟩ := Nat.exists_eq_add_of_le' le
      have again := fun form => ih (Nat.le_of_succ_le_succ le) form
      unfold expandAll
      refine after fun expansion => ?_
      split <;> infer_instance

instance : Agrees (macroexpand1 I args) (macroexpand1 J args) := by
  unfold macroexpand1
  infer_instance

instance : Agrees (macroexpand I args) (macroexpand J args) := by
  unfold macroexpand
  exact after fun _ => agrees_expandAll levels.fuel_le _

instance (less : Value) (fuel : Nat) (as bs : List Value) :
    Agrees (mergeBy I less fuel as bs) (mergeBy J less fuel as bs) := by
  fun_induction mergeBy I less fuel as bs with
  | case1 =>
      rw [mergeBy.eq_1 J]
      infer_instance
  | case2 fuel as bs short =>
      rw [mergeBy.eq_2 J _ _ _ _ short]
      infer_instance

instance (less : Value) (fuel : Nat) :
    Agrees (sortBy I less fuel items) (sortBy J less fuel items) := by
  induction fuel generalizing items with
  | zero => exact refl _
  | succ fuel ih =>
      unfold sortBy
      infer_instance

instance : Agrees (sort I args) (sort J args) := by
  unfold sort
  dsimp only
  refine after fun _ => ?_
  split <;> infer_instance

instance (test : Value) (keep : Bool) :
    Agrees (selectValues I test keep items) (selectValues J test keep items) := by
  induction items with
  | nil => exact refl _
  | cons item rest ih =>
      unfold selectValues
      infer_instance

instance (test seq : Value) (keep : Bool) :
    Agrees (select I test seq keep) (select J test seq keep) := by
  unfold select
  infer_instance

instance (name : String) (exact keep : Bool) :
    Agrees (selection name exact keep I args) (selection name exact keep J args) := by
  unfold selection
  infer_instance

instance (test : Value) : Agrees (findValue I test items) (findValue J test items) := by
  induction items with
  | nil => exact refl _
  | cons item rest ih =>
      unfold findValue
      infer_instance

instance : Agrees (seqFind I args) (seqFind J args) := by
  unfold seqFind
  infer_instance

instance : Agrees (clFindIf I args) (clFindIf J args) := by
  unfold clFindIf
  infer_instance

instance (test item : Value) : Agrees (anyBy I test item items) (anyBy J test item items) := by
  induction items with
  | nil => exact refl _
  | cons item rest ih =>
      unfold anyBy
      infer_instance

instance : Agrees (seqContainsP I args) (seqContainsP J args) := by
  unfold seqContainsP
  refine after fun _ => after fun items => ?_
  split <;> infer_instance

instance (acc : Value) : Agrees (reduce I function acc items) (reduce J function acc items) := by
  induction items generalizing acc with
  | nil => exact refl _
  | cons item rest ih =>
      unfold reduce
      infer_instance

instance : Agrees (seqReduce I args) (seqReduce J args) := by
  unfold seqReduce
  infer_instance

instance : Agrees (firstTrue I function items) (firstTrue J function items) := by
  induction items with
  | nil => exact refl _
  | cons item rest ih =>
      unfold firstTrue
      infer_instance

instance : Agrees (clSome I args) (clSome J args) := by
  unfold clSome
  infer_instance

instance (test : Value) : Agrees (allTrue I test items) (allTrue J test items) := by
  induction items with
  | nil => exact refl _
  | cons item rest ih =>
      unfold allTrue
      infer_instance

instance : Agrees (clEvery I args) (clEvery J args) := by
  unfold clEvery
  infer_instance

/-! ## Lists and searches -/

theorem countFloats_of_le {inside : Float → Bool} {start step : Float} {fuel fuel' : Nat}
    {n : Float} {out items : List Value} (le : fuel ≤ fuel')
    (counted : countFloats inside start step fuel n out = some items) :
    countFloats inside start step fuel' n out = some items := by
  induction fuel generalizing fuel' n out with
  | zero => cases counted
  | succ fuel ih =>
      obtain ⟨fuel', rfl⟩ := Nat.exists_eq_add_of_le' le
      unfold countFloats at counted ⊢
      dsimp only at counted ⊢
      split at counted
      next inRange =>
        rw [if_pos inRange]
        exact ih (Nat.le_of_succ_le_succ le) counted
      next outside =>
        rw [if_neg outside]
        exact counted

instance : Agrees (numberSequence I args) (numberSequence J args) := by
  have listed (inside : Float → Bool) (start step : Float) : Agrees
      (match countFloats inside start step I.fuel 0.0 [] with
        | some items => list items
        | none => Eval.unfinished)
      (match countFloats inside start step J.fuel 0.0 [] with
        | some items => list items
        | none => Eval.unfinished) := by
    cases counted : countFloats inside start step I.fuel 0.0 [] with
    | none => exact unfinished _
    | some items =>
        rw [countFloats_of_le levels.fuel_le counted]
        exact refl _
  unfold numberSequence
  dsimp only
  refine after fun _ => ?_
  split
  · infer_instance
  · refine branch (after fun start => after fun stop => ?_) (refl _)
    split <;> infer_instance

theorem agrees_assocBy (test key : Value) {fuel fuel' : Nat} (le : fuel ≤ fuel') (list : Value) :
    Agrees (assocBy I test key fuel list) (assocBy J test key fuel' list) := by
  induction fuel generalizing fuel' list with
  | zero => exact unfinished _
  | succ fuel ih =>
      obtain ⟨fuel', rfl⟩ := Nat.exists_eq_add_of_le' le
      have again := fun list => ih (Nat.le_of_succ_le_succ le) list
      unfold assocBy
      infer_instance

instance : Agrees (assoc I args) (assoc J args) := by
  unfold assoc
  dsimp only
  refine after fun _ => ?_
  split
  · exact agrees_assocBy _ _ levels.fuel_le _
  · infer_instance

instance : Agrees (alistGet I args) (alistGet J args) := by
  have found (test : Value) :=
    agrees_assocBy (I := I) (J := J) test (arg args 0) levels.fuel_le (arg args 1)
  unfold alistGet
  dsimp only
  refine after fun _ => ?_
  split <;> infer_instance

instance (replacement : Value) (literal : Bool) (group : Nat) (chars : List Char) (done : Nat)
    (out : String) (matched : List (Regexp.Captures chars)) :
    Agrees (replaceMatches I replacement literal group chars done out matched)
      (replaceMatches J replacement literal group chars done out matched) := by
  induction matched generalizing done out with
  | nil => exact refl _
  | cons found more ih =>
      unfold replaceMatches
      dsimp only
      split
      · split <;> infer_instance
      · refine after fun _ => after fun _ => after fun _ => after fun _ => ?_
        split <;> infer_instance

instance : Agrees (replaceRegexpInString I args) (replaceRegexpInString J args) := by
  unfold replaceRegexpInString
  infer_instance

/-! ## Hooks and output -/

instance (stop : Value → Bool) (functions : List Value) :
    Agrees (callUntil I args stop functions) (callUntil J args stop functions) := by
  induction functions with
  | nil => exact refl _
  | cons function rest ih =>
      unfold callUntil
      infer_instance

instance (hook : String) (stop : Value → Bool) :
    Agrees (runHook I hook args stop) (runHook J hook args stop) := by
  unfold runHook
  infer_instance

instance (hooks : List Value) : Agrees (runAll I hooks) (runAll J hooks) := by
  induction hooks with
  | nil => exact refl _
  | cons hook rest ih =>
      unfold runAll
      infer_instance

instance : Agrees (runHooks I args) (runHooks J args) := by
  unfold runHooks
  infer_instance

instance (name : String) (stop : Value → Bool) (answer : Option Value → Value) :
    Agrees (runWith name stop answer I args) (runWith name stop answer J args) := by
  unfold runWith
  infer_instance

instance (text : List Char) : Agrees (emitChars I function text) (emitChars J function text) := by
  induction text with
  | nil => exact refl _
  | cons c rest ih =>
      unfold emitChars
      infer_instance

instance (out : String) (target : Value) : Agrees (emit I out target) (emit J out target) := by
  unfold emit
  split <;> infer_instance

instance (name : String) (maximum : Nat) (form : Session → Value → String) :
    Agrees (printer name maximum form I args) (printer name maximum form J args) := by
  unfold printer
  infer_instance

instance : Agrees (terpri I args) (terpri J args) := by
  unfold terpri
  infer_instance

/-! ## What names stand for -/

instance : Agrees (internSoft I args) (internSoft J args) := by
  unfold internSoft
  simp only [Session.isCallable_eq (I := I) (J := J)]
  infer_instance

instance : Agrees (symbolFunction I args) (symbolFunction J args) := by
  unfold symbolFunction
  rw [levels.isPrimitive_eq]
  infer_instance

instance : Agrees (indirectFunction I args) (indirectFunction J args) := by
  unfold indirectFunction
  simp only [Session.function?_eq (I := I) (J := J)]
  infer_instance

instance : Agrees (fboundp I args) (fboundp J args) := by
  unfold fboundp
  simp only [Session.isCallable_eq (I := I) (J := J)]
  infer_instance

instance : Agrees (functionp I args) (functionp J args) := by
  unfold functionp
  simp only [Session.function?_eq (I := I) (J := J)]
  infer_instance

instance : Agrees (macrop I args) (macrop J args) := by
  unfold macrop
  simp only [Session.function?_eq (I := I) (J := J)]
  infer_instance

end Primitives

/-! ## Loading -/

namespace Eval

instance (forms : List Value) : Agrees (evalForms I forms) (evalForms J forms) := by
  induction forms with
  | nil => exact refl _
  | cons form rest ih =>
      unfold evalForms
      infer_instance

instance (path : String) (data : List Datum) :
    Agrees (evalLoaded I path data) (evalLoaded J path data) := by
  unfold evalLoaded
  infer_instance

instance (path : String) : Agrees (loadFile I path) (loadFile J path) := by
  unfold loadFile
  refine after fun s => ?_
  split
  · infer_instance
  · split <;> infer_instance

instance (feature : String) (file : Option String) (quiet : Bool) :
    Agrees (requireFeature I feature file quiet) (requireFeature J feature file quiet) := by
  unfold requireFeature
  refine after fun s => branch (refl _) ?_
  split <;> infer_instance

end Eval

namespace Primitives

instance : Agrees (load I args) (load J args) := by
  unfold load
  refine after fun _ => after fun name => after fun s => ?_
  split <;> infer_instance

instance : Agrees (require I args) (require J args) := by
  unfold require
  infer_instance

end Primitives

/-! ## Commands -/

section Commands

theorem Session.resolve?_eq (s : Session) : s.resolve? J v = s.resolve? I v := by
  unfold Session.resolve?
  split
  next name => exact s.function?_eq name
  next => rfl

theorem Session.isCommand_eq (s : Session) : s.isCommand J v = s.isCommand I v := by
  unfold Session.isCommand
  rw [s.resolve?_eq (I := I) (J := J)]

theorem Session.refuses_eq (s : Session) (received : Nat) (flow : Flow) :
    s.refuses J function received flow = s.refuses I function received flow := by
  unfold Session.refuses Session.reportedName?
  rw [s.resolve?_eq (I := I) (J := J)]

theorem Primitives.isCallableValue_eq (s : Session) :
    isCallableValue s J v = isCallableValue s I v := by
  unfold isCallableValue
  split
  next name => exact s.isCallable_eq name
  next => rfl

namespace Eval

instance (argument : Option Value) :
    Agrees (callWithArgument I function argument) (callWithArgument J function argument) := by
  unfold callWithArgument
  split
  · infer_instance
  · refine after fun ended => ?_
    split <;> infer_instance

instance (argument : Option Value) :
    Agrees (callCommand I function argument) (callCommand J function argument) := by
  unfold callCommand
  simp only [Session.refuses_eq (I := I) (J := J)]
  refine after fun ended => ?_
  split <;> infer_instance

instance (argument : Option Value) :
    Agrees (invokeCommand I function argument) (invokeCommand J function argument) := by
  unfold invokeCommand
  infer_instance

end Eval

namespace Primitives

instance : Agrees (callInteractively I args) (callInteractively J args) := by
  unfold callInteractively
  simp only [Session.isCommand_eq (I := I) (J := J), isCallableValue_eq (I := I) (J := J)]
  infer_instance

instance : Agrees (commandExecute I args) (commandExecute J args) := by
  unfold commandExecute
  infer_instance

instance : Agrees (funcallInteractively I args) (funcallInteractively J args) := by
  unfold funcallInteractively
  infer_instance

instance : Agrees (callFn I args) (callFn J args) := by
  unfold callFn
  simp only [Session.isCallable_eq (I := I) (J := J)]
  refine after fun _ => after fun s => ?_
  split <;> infer_instance

instance : Agrees (commandp I args) (commandp J args) := by
  unfold commandp
  simp only [Session.isCommand_eq (I := I) (J := J)]
  infer_instance

end Primitives

end Commands

end EditorLisp
