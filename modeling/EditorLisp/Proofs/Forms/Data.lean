import EditorLisp.Forms.Loop
import EditorLisp.Forms.Pattern
import EditorLisp.Forms.Place
import EditorLisp.Proofs.Primitives.Values

/-!
# Templates, patterns, places and loops with clauses

The forms that take data apart and put it together.  Patterns are matched by a recursion
over the pattern, and the lemmas about it follow that recursion.
-/

namespace EditorLisp.Forms

open Eval Eval.Restores

section Reading

variable (I : Interp) [I.Restores] (forms : List Value) (frame : Nat) (v : Value)

/-! ## Quotation -/

theorem frames_mapStore {f : Value → Store → Value × Store}
    (same : ∀ v st, (f v st).2.frames = st.frames) (items : List Value) (st : Store) :
    (mapStore f items st).2.frames = st.frames := by
  induction items generalizing st with
  | nil => rfl
  | cons item rest ih => exact (ih (f item st).2).trans (same item st)

/-- The copy of quoted data has no frames. -/
theorem frames_build (fuel : Nat) (v : Value) (st : Store) :
    (build fuel v st).2.frames = st.frames := by
  induction fuel generalizing v st with
  | zero => rfl
  | succ fuel ih =>
      unfold build
      cases v with
      | cons ref =>
          dsimp only
          split
          · exact frames_mapStore ih _ st
          · exact (ih _ (build fuel _ st).2).trans (ih _ st)
      | vector ref => exact frames_mapStore ih _ st
      | _ => rfl

theorem retains_mapStore {f : Value → Store → Value × Store}
    (keeps : ∀ v (st : Store), st.Retains (f v st).2) (items : List Value) (st : Store) :
    st.Retains (mapStore f items st).2 := by
  induction items generalizing st with
  | nil => exact .refl st
  | cons item rest ih => exact (keeps item st).trans (ih _)

instance (fuel : Nat) : Store.KeepsObjects fun st => (build fuel v st).2 where
  retains st := by
    induction fuel generalizing v st with
    | zero => exact .refl st
    | succ fuel ih =>
        unfold build
        cases v with
        | cons ref =>
            dsimp only
            split
            · exact (retains_mapStore ih _ st).trans (.vector _ _)
            · exact ((ih _ st).trans (ih _ _)).trans (.cons _ _ _)
        | vector ref => exact (retains_mapStore ih _ st).trans (.vector _ _)
        | _ => exact .refl st

instance : Restores (literal v) := by
  unfold literal
  split <;> infer_instance

instance : Restores (quote I forms frame) := by
  unfold quote
  infer_instance

instance : Restores (function I forms frame) := by
  unfold function
  infer_instance

instance : Restores (vectorLiteral I forms frame) := by
  unfold vectorLiteral
  infer_instance

mutual

theorem Copy.retains_build (c : Copy) (st : Store) : st.Retains (c.build st).2 := by
  cases c with
  | leaf v => exact .refl st
  | cons car cdr =>
      exact ((car.retains_build st).trans (cdr.retains_build _)).trans (.cons _ _ _)
  | vector items => exact (Copy.retains_buildAll items st).trans (.vector _ _)

theorem Copy.retains_buildAll (copies : List Copy) (st : Store) :
    st.Retains (buildAll copies st).2 := by
  cases copies with
  | nil => exact .refl st
  | cons c rest => exact (c.retains_build st).trans (Copy.retains_buildAll rest _)

end

instance (c : Copy) : Store.KeepsObjects fun st => (c.build st).2 := ⟨c.retains_build⟩

instance (fill : Remainder → Eval Copy) [∀ template, Restores (fill template)] (depth fuel : Nat)
    (first : Bool) (items : List Copy) (template : Remainder) :
    Restores (fillItems I fill frame depth fuel first items template) := by
  induction fuel generalizing first items template with
  | zero => exact unfinished
  | succ fuel ih =>
      unfold fillItems
      split
      · refine after fun item => ?_
        split
        · infer_instance
        · refine after fun spliced => ?_
          split <;> infer_instance
      · infer_instance

instance (fuel depth : Nat) (template : Remainder) :
    Restores (fill I frame fuel depth template) := by
  induction fuel generalizing depth template with
  | zero => exact unfinished
  | succ fuel ih =>
      unfold fill
      split
      · infer_instance
      · split
        · refine after fun head => after fun inner => ?_
          split
          · split <;> infer_instance
          · split
            · infer_instance
            · split <;> infer_instance
        · infer_instance

instance : Restores (backquote I forms frame) := by
  unfold backquote
  infer_instance

/-! ## Patterns -/

instance {α : Type} : Restores (unknownPattern v : Eval α) := by
  unfold unknownPattern
  refine after fun s => ?_
  split <;> infer_instance

instance (args : List Value) : Restores (onlyArgument v args) := by
  unfold onlyArgument
  split <;> infer_instance

/-- Patterns and templates are read in turn, each with less of the bound. -/
theorem restores_reading (fuel : Nat) :
    (∀ form, Restores (readPattern fuel form)) ∧
      ∀ template, Restores (readTemplate fuel template) := by
  induction fuel with
  | zero =>
      constructor
      · exact fun form => by unfold readPattern; infer_instance
      · exact fun template => by unfold readTemplate; infer_instance
  | succ fuel ih =>
      obtain ⟨pattern, template⟩ := ih
      constructor
      · intro form
        unfold readPattern
        split
        · infer_instance
        · infer_instance
        · refine after fun s => ?_
          dsimp only
          split
          · infer_instance
          · split <;> infer_instance
        · infer_instance
      · intro form
        unfold readTemplate
        split <;> infer_instance

instance (fuel : Nat) : Restores (readPattern fuel v) := (restores_reading fuel).1 v

instance (bound : Bound) : Restores (boundFrame frame bound) := by
  unfold boundFrame
  infer_instance

instance (fuel : Nat) : Restores (evalItems I frame fuel v) := by
  induction fuel generalizing v with
  | zero => exact unfinished
  | succ fuel ih =>
      unfold evalItems
      infer_instance

instance (subject : Value) : Restores (callPredicate I v subject frame) := by
  unfold callPredicate
  split <;> infer_instance

end Reading

mutual

/-- A match evaluates predicates and guards on the way. -/
theorem restores_match (I : Interp) [I.Restores] (frame : Nat) (pattern : Pattern) (value : Value)
    (bound : Bound) : Restores (pattern.match? I frame value bound) := by
  unfold Pattern.match?
  cases pattern with
  | wildcard => infer_instance
  | bind name => infer_instance
  | literal expected => infer_instance
  | predicate function negated => infer_instance
  | guard form => infer_instance
  | all patterns => exact restores_matchAll I frame patterns value bound
  | any patterns => exact restores_matchAny I frame patterns value bound
  | pair carPattern cdrPattern =>
      have first (value : Value) := restores_match I frame carPattern value bound
      have second (value : Value) (bound : Bound) := restores_match I frame cdrPattern value bound
      dsimp only
      split
      · refine after fun car => after fun matched => ?_
        split <;> infer_instance
      · infer_instance
  | vector patterns =>
      have each (values : List Value) := restores_matchEach I frame patterns values bound
      refine after fun s => ?_
      split <;> infer_instance
termination_by structural pattern

theorem restores_matchAll (I : Interp) [I.Restores] (frame : Nat) (patterns : List Pattern)
    (value : Value) (bound : Bound) : Restores (matchAll I frame patterns value bound) := by
  unfold matchAll
  cases patterns with
  | nil => infer_instance
  | cons pattern rest =>
      have first := restores_match I frame pattern value bound
      have others (bound : Bound) := restores_matchAll I frame rest value bound
      refine after fun matched => ?_
      split <;> infer_instance
termination_by structural patterns

theorem restores_matchAny (I : Interp) [I.Restores] (frame : Nat) (patterns : List Pattern)
    (value : Value) (bound : Bound) : Restores (matchAny I frame patterns value bound) := by
  unfold matchAny
  cases patterns with
  | nil => infer_instance
  | cons pattern rest =>
      have first := restores_match I frame pattern value bound
      have others := restores_matchAny I frame rest value bound
      refine after fun matched => ?_
      split <;> infer_instance
termination_by structural patterns

theorem restores_matchEach (I : Interp) [I.Restores] (frame : Nat) (patterns : List Pattern)
    (values : List Value) (bound : Bound) : Restores (matchEach I frame patterns values bound) := by
  unfold matchEach
  cases patterns with
  | nil => infer_instance
  | cons pattern rest =>
      cases values with
      | nil => infer_instance
      | cons value values =>
          have first := restores_match I frame pattern value bound
          have others (bound : Bound) := restores_matchEach I frame rest values bound
          refine after fun matched => ?_
          split <;> infer_instance
termination_by structural patterns

end

section Matching

variable (I : Interp) [I.Restores] (forms : List Value) (frame : Nat) (v : Value)

instance (pattern : Pattern) (bound : Bound) : Restores (pattern.match? I frame v bound) :=
  restores_match I frame pattern v bound

instance (subject : Value) : Restores (pcaseClauses I frame subject forms) := by
  induction forms with
  | nil => exact pure _
  | cons clause rest ih =>
      unfold pcaseClauses
      refine after fun _ => after fun pattern => after fun matched => ?_
      split <;> infer_instance

instance : Restores (pcase I forms frame) := by
  unfold pcase
  infer_instance

/-! ## Places -/

section Places

variable {α : Type}

instance (index : Int64) : Restores (Place.outOfRange v index : Eval α) := by
  unfold Place.outOfRange
  infer_instance

instance (index : Int64) : Restores (Place.cell v index) := by
  unfold Place.cell
  infer_instance

instance (index : Int64) : Restores (Place.element v index) := by
  unfold Place.element
  refine after fun s => ?_
  split <;> infer_instance

instance : Restores (Place.pair v) := by
  unfold Place.pair
  infer_instance

instance (what : String) : Restores (Place.bad what v : Eval α) := by
  unfold Place.bad
  infer_instance

instance (fuel : Nat) : Restores (Place.resolve I frame fuel v) := by
  induction fuel generalizing v with
  | zero => exact unfinished
  | succ fuel ih =>
      unfold Place.resolve
      split
      · infer_instance
      · refine after fun s => ?_
        have part (i : Nat) : Restores (match ((s.list? (s.cdr v)).getD [])[i]? with
            | some sub => I.eval sub frame
            | none => Place.bad "Bad" v) := by
          split <;> infer_instance
        dsimp only
        split
        · infer_instance
        · infer_instance
        · infer_instance
        · infer_instance
        · refine after fun seq => after fun _ => after fun index => ?_
          split <;> infer_instance
        · infer_instance
        · refine after fun expansion => ?_
          split <;> infer_instance

instance : Restores (Place.ofForm I frame v) := by
  unfold Place.ofForm
  infer_instance

instance (place : Place) : Restores (place.read frame) := by
  unfold Place.read
  split
  · refine after fun s => ?_
    split <;> infer_instance
  · infer_instance
  · infer_instance
  · infer_instance

instance (place : Place) : Restores (place.write frame v) := by
  unfold Place.write
  split <;> infer_instance

instance : Restores (setfPairs I frame v forms) := by
  fun_induction setfPairs <;> infer_instance

instance : Restores (setf I forms frame) := by
  unfold setf
  infer_instance

instance : Restores (push I forms frame) := by
  unfold push
  infer_instance

instance : Restores (pop I forms frame) := by
  unfold pop
  refine after fun _ => after fun place => after fun list => ?_
  split <;> infer_instance

instance (name : String) (combine : List Value → Eval Value) [∀ args, Restores (combine args)] :
    Restores (step name combine I forms frame) := by
  unfold step
  dsimp only
  refine after fun _ => after fun place => ?_
  split <;> infer_instance

instance : Restores (rotatef I forms frame) := by
  unfold rotatef
  infer_instance

end Places

/-! ## Loops with clauses -/

instance : Restores (LoopSpec.ofForms forms) := by
  unfold LoopSpec.ofForms
  split <;> infer_instance

instance (clause : CountClause) : Restores (clause.begin I frame) := by
  unfold CountClause.begin
  dsimp only
  refine after fun _ => after fun value => ?_
  split <;> infer_instance

instance (total value : Value) : Restores (addTotal total value) := by
  unfold addTotal
  split <;> infer_instance

instance (action : LoopAction) (r : LoopResult) : Restores (action.perform I frame r) := by
  unfold LoopAction.perform
  split <;> infer_instance

instance (assigns : List (String × Value)) : Restores (assignVariables I frame assigns) := by
  induction assigns with
  | nil => exact pure _
  | cons assign rest ih =>
      unfold assignVariables
      infer_instance

instance : Restores (allHold I frame forms) := by
  induction forms with
  | nil => exact pure _
  | cons form rest ih =>
      unfold allHold
      infer_instance

instance (spec : LoopSpec) (action : LoopAction) (room : Nat) (limit : Option Nat)
    (sequences : List (String × List Value)) (counters : List Counter) (r : LoopResult) :
    Restores (rounds I frame spec action room limit sequences counters r) := by
  induction room generalizing limit sequences counters r with
  | zero => exact pure _
  | succ room ih =>
      have heads : Store.KeepsObjects fun st =>
          counters.foldl (fun st c => st.defineIn frame c.var (.int c.value))
            (sequences.foldl (fun st (var, items) => st.defineIn frame var (items.headD .nil)) st) :=
        .comp (.foldl (fun _ => inferInstance) counters) (.foldl (fun _ => inferInstance) sequences)
      unfold rounds
      infer_instance

instance (bindings : List (String × Option Value)) : Restores (defineWith I frame bindings) := by
  induction bindings with
  | nil => exact pure _
  | cons binding rest ih =>
      unfold defineWith
      dsimp only
      split <;> infer_instance

instance : Restores (clLoop I forms frame) := by
  unfold clLoop
  dsimp only
  refine after fun spec => ?_
  split
  · infer_instance
  · refine after fun _ => after fun _ => after fun sequences => after fun counters => ?_
    split
    · refine after fun _ => after fun _ => after fun _ => after fun r => ?_
      split <;> infer_instance
    · refine after fun _ => after fun r => ?_
      split <;> infer_instance

end Matching

end EditorLisp.Forms
