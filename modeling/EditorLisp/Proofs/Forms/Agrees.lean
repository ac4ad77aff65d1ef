import EditorLisp.Forms
import EditorLisp.Proofs.Evaluation.Agrees
import EditorLisp.Proofs.Interpreter

/-!
# Special forms agree if the interpreters do

A special form that evaluates its parts with an interpreter ends likewise with one that goes
further.  Loops that count down the bound go by induction on it: with less of it they have
not finished, and with more they do the same.
-/

namespace EditorLisp.Forms

open Eval Eval.Agrees

variable {I J : Interp} [levels : I.Agrees J] (forms : List Value) (frame : Nat) (v : Value)

/-! ## Assignment and conditionals -/

instance (store : String → Value → Eval Unit) (last : Value) :
    Agrees (assignPairs I frame store last forms) (assignPairs J frame store last forms) := by
  fun_induction assignPairs I frame store last forms with
  | case1 =>
      rw [assignPairs.eq_1 J]
      infer_instance
  | case2 last forms short =>
      rw [assignPairs.eq_2 J _ _ _ _ short]
      infer_instance

instance (name : String) (store : Nat → String → Value → Eval Unit) :
    Agrees (assignment name store I forms frame) (assignment name store J forms frame) := by
  unfold assignment
  infer_instance

instance : Agrees (setq I forms frame) (setq J forms frame) := by
  unfold setq
  infer_instance

instance : Agrees (setqLocal I forms frame) (setqLocal J forms frame) := by
  unfold setqLocal
  infer_instance

instance : Agrees (setqDefault I forms frame) (setqDefault J forms frame) := by
  unfold setqDefault
  infer_instance

instance : Agrees (ifForm I forms frame) (ifForm J forms frame) := by
  unfold ifForm
  split <;> infer_instance

instance (name : String) (expected : Bool) :
    Agrees (guarded name expected I forms frame) (guarded name expected J forms frame) := by
  unfold guarded
  split <;> infer_instance

instance : Agrees (condClauses I frame forms) (condClauses J frame forms) := by
  induction forms with
  | nil => exact refl _
  | cons clause rest ih =>
      unfold condClauses
      refine after fun _ => ?_
      split <;> infer_instance

instance : Agrees (Forms.cond I forms frame) (Forms.cond J forms frame) := by
  unfold Forms.cond
  infer_instance

instance (last : Value) : Agrees (andForms I frame last forms) (andForms J frame last forms) := by
  induction forms generalizing last with
  | nil => exact refl _
  | cons form rest ih =>
      unfold andForms
      infer_instance

instance : Agrees (andForm I forms frame) (andForm J forms frame) := by
  unfold andForm
  infer_instance

instance : Agrees (orForms I frame forms) (orForms J frame forms) := by
  induction forms with
  | nil => exact refl _
  | cons form rest ih =>
      unfold orForms
      infer_instance

instance : Agrees (orForm I forms frame) (orForm J forms frame) := by
  unfold orForm
  infer_instance

instance (key : Value) :
    Agrees (caseClauses I frame key forms) (caseClauses J frame key forms) := by
  induction forms with
  | nil => exact refl _
  | cons clause rest ih =>
      unfold caseClauses
      infer_instance

instance : Agrees (clCase I forms frame) (clCase J forms frame) := by
  unfold clCase
  infer_instance

/-! ## Sequences and loops -/

instance : Agrees (progn I forms frame) (progn J forms frame) := by
  unfold progn
  infer_instance

instance : Agrees (prog1 I forms frame) (prog1 J forms frame) := by
  unfold prog1
  infer_instance

instance : Agrees (prog2 I forms frame) (prog2 J forms frame) := by
  unfold prog2
  infer_instance

theorem agrees_whileLoop (test : Value) (body : List Value) {fuel fuel' : Nat}
    (le : fuel ≤ fuel') :
    Agrees (whileLoop I frame test body fuel) (whileLoop J frame test body fuel') := by
  induction fuel generalizing fuel' with
  | zero => exact unfinished _
  | succ fuel ih =>
      obtain ⟨fuel', rfl⟩ := Nat.exists_eq_add_of_le' le
      have again := ih (Nat.le_of_succ_le_succ le)
      unfold whileLoop
      infer_instance

instance : Agrees (whileForm I forms frame) (whileForm J forms frame) := by
  unfold whileForm
  exact after fun _ => agrees_whileLoop frame _ _ levels.fuel_le

instance (var : String) (body : List Value) (rounds : Nat) (i : Int64) (last : Value) :
    Agrees (countLoop I frame var body rounds i last)
      (countLoop J frame var body rounds i last) := by
  induction rounds generalizing i last with
  | zero => exact refl _
  | succ rounds ih =>
      unfold countLoop
      infer_instance

instance : Agrees (dotimes I forms frame) (dotimes J forms frame) := by
  unfold dotimes
  repeat refine after fun _ => ?_
  split <;> infer_instance

instance (var : String) (body : List Value) (last : Value) (items : List Value) :
    Agrees (itemLoop I frame var body last items) (itemLoop J frame var body last items) := by
  induction items generalizing last with
  | nil => exact refl _
  | cons item rest ih =>
      unfold itemLoop
      infer_instance

instance : Agrees (dolist I forms frame) (dolist J forms frame) := by
  unfold dolist
  repeat refine after fun _ => ?_
  split <;> infer_instance

/-! ## Bindings -/

instance (form : Option Value) : Agrees (initial I frame form) (initial J frame form) := by
  unfold initial
  split <;> infer_instance

instance (dynamic lexical : List (String × Value)) (rest : List (String × Option Value)) :
    Agrees (letValues I frame dynamic lexical rest) (letValues J frame dynamic lexical rest) := by
  induction rest generalizing dynamic lexical with
  | nil => exact refl _
  | cons binding rest ih =>
      unfold letValues
      infer_instance

instance : Agrees (letForm I forms frame) (letForm J forms frame) := by
  unfold letForm
  split <;> infer_instance

instance (body : List Value) (rest : List (String × Option Value)) :
    Agrees (letSequence I frame body rest) (letSequence J frame body rest) := by
  induction rest with
  | nil => exact evalBody body frame
  | cons binding rest ih =>
      unfold letSequence
      infer_instance

instance : Agrees (letStar I forms frame) (letStar J forms frame) := by
  unfold letStar
  split <;> infer_instance

/-! ## Non-local exits -/

instance : Agrees (catchForm I forms frame) (catchForm J forms frame) := by
  unfold catchForm
  repeat refine after fun _ => ?_
  split <;> infer_instance

instance : Agrees (unwindProtect I forms frame) (unwindProtect J forms frame) := by
  unfold unwindProtect
  infer_instance

instance (handler : Value) (var : String) (value : Value) :
    Agrees (runHandler I frame handler var value) (runHandler J frame handler var value) := by
  unfold runHandler
  infer_instance

instance : Agrees (conditionCase I forms frame) (conditionCase J forms frame) := by
  unfold conditionCase
  dsimp only
  repeat refine after fun _ => ?_
  split
  · infer_instance
  · refine after fun ended => ?_
    split <;> refine after fun _ => ?_ <;> split <;> infer_instance

instance : Agrees (ignoreErrors I forms frame) (ignoreErrors J forms frame) := by
  unfold ignoreErrors
  infer_instance

instance : Agrees (clAssert I forms frame) (clAssert J forms frame) := by
  unfold clAssert
  infer_instance

/-! ## Definitions -/

instance (always : Bool) :
    Agrees (declareVariable I frame always forms) (declareVariable J frame always forms) := by
  unfold declareVariable
  repeat refine after fun _ => ?_
  split <;> infer_instance

instance (always : Bool) : Agrees (defvar always I forms frame) (defvar always J forms frame) := by
  unfold defvar
  infer_instance

instance : Agrees (defvarLocal I forms frame) (defvarLocal J forms frame) := by
  unfold defvarLocal
  infer_instance

instance : Agrees (defalias I forms frame) (defalias J forms frame) := by
  unfold defalias
  dsimp only
  refine after fun _ => after fun quoted => ?_
  split
  · infer_instance
  · split <;> infer_instance

/-! ## Excursions -/

instance : Agrees (saveExcursion I forms frame) (saveExcursion J forms frame) := by
  unfold saveExcursion
  infer_instance

instance : Agrees (saveCurrentBuffer I forms frame) (saveCurrentBuffer J forms frame) := by
  unfold saveCurrentBuffer
  infer_instance

instance : Agrees (withCurrentBuffer I forms frame) (withCurrentBuffer J forms frame) := by
  unfold withCurrentBuffer
  infer_instance

instance : Agrees (withTempBuffer I forms frame) (withTempBuffer J forms frame) := by
  unfold withTempBuffer
  infer_instance

instance : Agrees (saveMatchData I forms frame) (saveMatchData J forms frame) := by
  unfold saveMatchData
  infer_instance

instance : Agrees (saveWindowExcursion I forms frame) (saveWindowExcursion J forms frame) := by
  unfold saveWindowExcursion
  infer_instance

instance : Agrees (saveSelectedWindow I forms frame) (saveSelectedWindow J forms frame) := by
  unfold saveSelectedWindow
  infer_instance

/-! ## Templates -/

theorem agrees_fillItems {part part' : Remainder → Eval Copy}
    (parts : ∀ template, Agrees (part template) (part' template)) (depth : Nat)
    {fuel fuel' : Nat} (le : fuel ≤ fuel') (first : Bool) (items : List Copy)
    (template : Remainder) :
    Agrees (fillItems I part frame depth fuel first items template)
      (fillItems J part' frame depth fuel' first items template) := by
  induction fuel generalizing fuel' first items template with
  | zero => exact unfinished _
  | succ fuel ih =>
      obtain ⟨fuel', rfl⟩ := Nat.exists_eq_add_of_le' le
      have again := fun first items template =>
        ih (Nat.le_of_succ_le_succ le) first items template
      unfold fillItems
      refine branch (after fun item => branch inferInstance ?_) inferInstance
      refine after fun spliced => ?_
      split <;> infer_instance

theorem agrees_fill {fuel fuel' : Nat} (le : fuel ≤ fuel') (depth : Nat) (template : Remainder) :
    Agrees (fill I frame fuel depth template) (fill J frame fuel' depth template) := by
  induction fuel generalizing fuel' depth template with
  | zero => exact unfinished _
  | succ fuel ih =>
      obtain ⟨fuel', rfl⟩ := Nat.exists_eq_add_of_le' le
      have parts := fun depth template => ih (Nat.le_of_succ_le_succ le) depth template
      have items := agrees_fillItems (I := I) (J := J) frame (parts depth) depth levels.fuel_le
        true []
      unfold fill
      split
      · infer_instance
      · refine branch (after fun head => after fun inner => ?_) inferInstance
        refine branch (branch inferInstance inferInstance) ?_
        exact branch inferInstance (branch inferInstance (items _))

instance : Agrees (backquote I forms frame) (backquote J forms frame) := by
  have filled := agrees_fill (I := I) (J := J) frame levels.fuel_le 1
  unfold backquote
  infer_instance

/-! ## Patterns -/

/-- Patterns and templates are read in turn, each with less of the bound. -/
theorem agrees_reading {fuel fuel' : Nat} (le : fuel ≤ fuel') :
    (∀ form, Agrees (readPattern fuel form) (readPattern fuel' form)) ∧
      ∀ template, Agrees (readTemplate fuel template) (readTemplate fuel' template) := by
  induction fuel generalizing fuel' with
  | zero =>
      constructor
      · exact fun form => by unfold readPattern; exact unfinished _
      · exact fun template => by unfold readTemplate; exact unfinished _
  | succ fuel ih =>
      obtain ⟨fuel', rfl⟩ := Nat.exists_eq_add_of_le' le
      obtain ⟨pattern, template⟩ := ih (Nat.le_of_succ_le_succ le)
      constructor
      · intro form
        unfold readPattern
        split
        · infer_instance
        · infer_instance
        · refine after fun s => ?_
          dsimp only
          split
          · infer_instance
          · split <;> infer_instance
        · infer_instance
      · intro form
        unfold readTemplate
        split <;> infer_instance

theorem agrees_evalItems {fuel fuel' : Nat} (le : fuel ≤ fuel') (list : Value) :
    Agrees (evalItems I frame fuel list) (evalItems J frame fuel' list) := by
  induction fuel generalizing fuel' list with
  | zero => exact unfinished _
  | succ fuel ih =>
      obtain ⟨fuel', rfl⟩ := Nat.exists_eq_add_of_le' le
      have later (list : Value) := ih (Nat.le_of_succ_le_succ le) list
      unfold evalItems
      exact branch (after fun form => after fun next => inferInstance) (refl _)

instance (subject : Value) :
    Agrees (callPredicate I v subject frame) (callPredicate J v subject frame) := by
  have walked (list : Value) := agrees_evalItems (I := I) (J := J) frame levels.fuel_le list
  unfold callPredicate
  split <;> infer_instance

mutual

/-- A match evaluates predicates and guards on the way. -/
theorem agrees_match {I J : Interp} [I.Agrees J] (frame : Nat) (pattern : Pattern) (value : Value)
    (bound : Bound) :
    Agrees (pattern.match? I frame value bound) (pattern.match? J frame value bound) := by
  unfold Pattern.match?
  cases pattern with
  | wildcard => infer_instance
  | bind name => infer_instance
  | literal expected => infer_instance
  | predicate function negated => infer_instance
  | guard form => infer_instance
  | all patterns => exact agrees_matchAll frame patterns value bound
  | any patterns => exact agrees_matchAny frame patterns value bound
  | pair carPattern cdrPattern =>
      have first (value : Value) := agrees_match (I := I) (J := J) frame carPattern value bound
      have second (value : Value) (bound : Bound) :=
        agrees_match (I := I) (J := J) frame cdrPattern value bound
      refine branch (after fun car => after fun matched => ?_) (refl _)
      split <;> infer_instance
  | vector patterns =>
      have each (values : List Value) :=
        agrees_matchEach (I := I) (J := J) frame patterns values bound
      refine after fun s => ?_
      split <;> infer_instance
termination_by structural pattern

theorem agrees_matchAll {I J : Interp} [I.Agrees J] (frame : Nat) (patterns : List Pattern)
    (value : Value) (bound : Bound) :
    Agrees (matchAll I frame patterns value bound) (matchAll J frame patterns value bound) := by
  unfold matchAll
  cases patterns with
  | nil => infer_instance
  | cons pattern rest =>
      have first := agrees_match (I := I) (J := J) frame pattern value bound
      have others (bound : Bound) := agrees_matchAll (I := I) (J := J) frame rest value bound
      refine after fun matched => ?_
      split <;> infer_instance
termination_by structural patterns

theorem agrees_matchAny {I J : Interp} [I.Agrees J] (frame : Nat) (patterns : List Pattern)
    (value : Value) (bound : Bound) :
    Agrees (matchAny I frame patterns value bound) (matchAny J frame patterns value bound) := by
  unfold matchAny
  cases patterns with
  | nil => infer_instance
  | cons pattern rest =>
      have first := agrees_match (I := I) (J := J) frame pattern value bound
      have others := agrees_matchAny (I := I) (J := J) frame rest value bound
      refine after fun matched => ?_
      split <;> infer_instance
termination_by structural patterns

theorem agrees_matchEach {I J : Interp} [I.Agrees J] (frame : Nat) (patterns : List Pattern)
    (values : List Value) (bound : Bound) :
    Agrees (matchEach I frame patterns values bound) (matchEach J frame patterns values bound) := by
  unfold matchEach
  cases patterns with
  | nil => infer_instance
  | cons pattern rest =>
      cases values with
      | nil => infer_instance
      | cons value values =>
          have first := agrees_match (I := I) (J := J) frame pattern value bound
          have others (bound : Bound) :=
            agrees_matchEach (I := I) (J := J) frame rest values bound
          refine after fun matched => ?_
          split <;> infer_instance
termination_by structural patterns

end

instance (pattern : Pattern) (bound : Bound) :
    Agrees (pattern.match? I frame v bound) (pattern.match? J frame v bound) :=
  agrees_match frame pattern v bound

instance (subject : Value) :
    Agrees (pcaseClauses I frame subject forms) (pcaseClauses J frame subject forms) := by
  induction forms with
  | nil => exact refl _
  | cons clause rest ih =>
      have read := (agrees_reading levels.fuel_le).1
      unfold pcaseClauses
      refine after fun _ => after fun pattern => after fun matched => ?_
      split <;> infer_instance

instance : Agrees (pcase I forms frame) (pcase J forms frame) := by
  unfold pcase
  infer_instance

/-! ## Places -/

theorem agrees_resolve {fuel fuel' : Nat} (le : fuel ≤ fuel') (form : Value) :
    Agrees (Place.resolve I frame fuel form) (Place.resolve J frame fuel' form) := by
  induction fuel generalizing fuel' form with
  | zero => exact unfinished _
  | succ fuel ih =>
      obtain ⟨fuel', rfl⟩ := Nat.exists_eq_add_of_le' le
      have again := fun form => ih (Nat.le_of_succ_le_succ le) form
      unfold Place.resolve
      split
      · infer_instance
      · refine after fun s => ?_
        extract_lets args part part'
        have parts (i : Nat) : Agrees (part i) (part' i) := by
          unfold part part'
          split <;> infer_instance
        split
        · infer_instance
        · infer_instance
        · infer_instance
        · infer_instance
        · refine after fun seq => after fun _ => after fun index => ?_
          split <;> infer_instance
        · infer_instance
        · refine after fun expansion => ?_
          split <;> infer_instance

instance : Agrees (Place.ofForm I frame v) (Place.ofForm J frame v) :=
  agrees_resolve frame levels.fuel_le v

instance : Agrees (setfPairs I frame v forms) (setfPairs J frame v forms) := by
  fun_induction setfPairs I frame v forms with
  | case1 =>
      rw [setfPairs.eq_1 J]
      infer_instance
  | case2 last forms short =>
      rw [setfPairs.eq_2 J _ _ _ short]
      infer_instance

instance : Agrees (setf I forms frame) (setf J forms frame) := by
  unfold setf
  infer_instance

instance : Agrees (push I forms frame) (push J forms frame) := by
  unfold push
  infer_instance

instance : Agrees (pop I forms frame) (pop J forms frame) := by
  unfold pop
  infer_instance

instance (name : String) (combine : List Value → Eval Value) :
    Agrees (step name combine I forms frame) (step name combine J forms frame) := by
  unfold step
  dsimp only
  refine after fun _ => after fun place => ?_
  split <;> infer_instance

instance : Agrees (rotatef I forms frame) (rotatef J forms frame) := by
  unfold rotatef
  infer_instance

/-! ## Loops with clauses -/

instance (clause : CountClause) : Agrees (clause.begin I frame) (clause.begin J frame) := by
  unfold CountClause.begin
  dsimp only
  refine after fun value => ?_
  split <;> infer_instance

instance (action : LoopAction) (r : LoopResult) :
    Agrees (action.perform I frame r) (action.perform J frame r) := by
  unfold LoopAction.perform
  split <;> infer_instance

instance (assigns : List (String × Value)) :
    Agrees (assignVariables I frame assigns) (assignVariables J frame assigns) := by
  induction assigns with
  | nil => exact refl _
  | cons assign rest ih =>
      unfold assignVariables
      infer_instance

instance : Agrees (allHold I frame forms) (allHold J frame forms) := by
  induction forms with
  | nil => exact refl _
  | cons form rest ih =>
      unfold allHold
      infer_instance

instance (spec : LoopSpec) (action : LoopAction) (room : Nat) (limit : Option Nat)
    (sequences : List (String × List Value)) (counters : List Counter) (r : LoopResult) :
    Agrees (rounds I frame spec action room limit sequences counters r)
      (rounds J frame spec action room limit sequences counters r) := by
  induction room generalizing limit sequences counters r with
  | zero => exact refl _
  | succ room ih =>
      unfold rounds
      infer_instance

instance (bindings : List (String × Option Value)) :
    Agrees (defineWith I frame bindings) (defineWith J frame bindings) := by
  induction bindings with
  | nil => exact refl _
  | cons binding rest ih =>
      unfold defineWith
      dsimp only
      split <;> infer_instance

instance : Agrees (clLoop I forms frame) (clLoop J forms frame) := by
  unfold clLoop
  dsimp only
  refine after fun spec => ?_
  split
  · infer_instance
  · refine after fun _ => after fun _ => after fun sequences => after fun counters => ?_
    split <;> infer_instance

/-! ## Definitions of modes -/

instance : Agrees (defineMinorMode I forms frame) (defineMinorMode J forms frame) := by
  unfold defineMinorMode
  dsimp only
  refine after fun _ => after fun name => ?_
  -- There may be a form for the initial value, and one for the keymap.
  split
  all_goals
    refine after fun init => after fun _ => after fun _ => ?_
    split
  all_goals infer_instance

instance (options : List (String × Value)) (o : KeymapOptions) :
    Agrees (keymapOptions I frame options o) (keymapOptions J frame options o) := by
  induction options generalizing o with
  | nil => exact refl _
  | cons option rest ih =>
      unfold keymapOptions
      infer_instance

instance (map : Value) : Agrees (bindKeys I frame map forms) (bindKeys J frame map forms) := by
  fun_induction bindKeys I frame map forms with
  | case1 keyForm form rest ih =>
      rw [bindKeys.eq_1 J]
      refine after fun spec => ?_
      split <;> infer_instance
  | case2 forms short =>
      rw [bindKeys.eq_2 J _ _ _ short]
      infer_instance

instance : Agrees (defvarKeymap I forms frame) (defvarKeymap J forms frame) := by
  unfold defvarKeymap
  infer_instance

instance : Agrees (easyMenuDefine I forms frame) (easyMenuDefine J forms frame) := by
  unfold easyMenuDefine
  infer_instance

end EditorLisp.Forms
