import EditorLisp.Forms.Pattern
import EditorLisp.Interpreter
import EditorLisp.Proofs.Evaluation.Dynamic
import EditorLisp.Proofs.Evaluation.Scope
import EditorLisp.Proofs.Forms.Control
import EditorLisp.Proofs.Forms.Data

/-!
# Bodies of binding forms

The bodies of functions, of `let` and `let*`, of the handlers of `condition-case` and of
the clauses of `pcase` see their variables as they were bound, special or not.  The guards
of a pattern do so only for ordinary variables, because a pattern that is still being
matched has bound nothing dynamically.
-/

namespace EditorLisp.Forms

open Eval

/-! ## Bindings made one after the other

`let*` evaluates its initial forms in the midst of the bindings made so far, each of which
is undone as soon as what comes after it has ended.  `sequenceBindings` is the way in
alone.  Whatever comes after it, the form ends as that does, and the way out reinstates
every variable that was bound on the way in. -/

section Sequence

variable (I : Interp) (frame : Nat) (body : List Value)

/-- Make the bindings of a `let*` in turn and leave them in force.  The answer names the
dynamic ones in order, each with the session in which it was made. -/
def sequenceBindings : List (String × Option Value) → Eval (List (String × Session))
  | [] => pure []
  | (name, form) :: rest => do
    let value ← initial I frame form
    let s ← session
    if s.isSpecial name then
      modify fun s => (s.bindSpecial name value).2
      return (name, s) :: (← sequenceBindings rest)
    else
      modifyStore (·.defineIn frame name value)
      sequenceBindings rest

/-- Every name in a list has, in a later session, what it had where the list says that it
was bound first. -/
def AllReinstated (made : List (String × Session)) (t : Session) : Prop :=
  ∀ name s, made.lookup name = some s → s.Reinstated name t

variable {I frame body}

/-- One more binding around others is undone after them. -/
theorem AllReinstated.undoBinding {name : String} {s t : Session} {made : List (String × Session)}
    (inner : AllReinstated made t) (value : Value) :
    AllReinstated ((name, s) :: made) (t.undoBinding (s.bindSpecial name value).1) := by
  intro other s' bound
  by_cases same : other = name
  · subst same
    rw [List.lookup_cons_self] at bound
    cases bound
    exact s.reinstated_undoBinding t other value
  · rw [List.lookup_cons, beq_eq_false_iff_ne.mpr same] at bound
    refine (inner other s' bound).undoBinding_of_ne ?_
    rw [s.name_bindSpecial]
    exact Ne.symm same

/-- The induction is on the bindings of the way in.  A lexical one leaves nothing to undo;
a dynamic one is undone around everything after it. -/
theorem endsAs_letSequence (body : List Value) {before : List (String × Option Value)}
    (rest : List (String × Option Value)) {s s' : Session} {made : List (String × Session)}
    (entered : sequenceBindings I frame before s = .ok made s') :
    (letSequence I frame body rest s').EndsAs (AllReinstated made)
      (letSequence I frame body (before ++ rest) s) := by
  induction before generalizing s made with
  | nil =>
      cases entered
      exact .refl _ fun _ _ _ bound => nomatch bound
  | cons first before ih =>
      obtain ⟨name, form⟩ := first
      rw [sequenceBindings] at entered
      show Outcome.EndsAs _ _ (letSequence I frame body ((name, form) :: (before ++ rest)) s)
      rw [letSequence]
      obtain ⟨value, s₁, evaluated, entered⟩ := ok_of_bind entered
      obtain ⟨_, _, ⟨⟩, entered⟩ := ok_of_bind entered
      rw [bind_of_ok _ evaluated]
      rw [bind_session _ s₁]
      by_cases special : s₁.isSpecial name = true
      · rw [if_pos special] at entered ⊢
        obtain ⟨_, s₂, ⟨⟩, entered⟩ := ok_of_bind entered
        obtain ⟨inner, _, deeper, ⟨⟩⟩ := ok_of_bind entered
        rw [withDynamic_eq]
        exact (ih deeper).ensuring fun t undone => undone.undoBinding value
      · rw [if_neg special] at entered ⊢
        obtain ⟨_, s₂, ⟨⟩, entered⟩ := ok_of_bind entered
        exact ih entered

/-- Bindings made at once around a step are undone however the step ends, and those of a
`let*` are undone when a later initial form leaves. -/
theorem reinstated_bindings (I : Interp) :
    (∀ {α : Type} (made : List (String × Value)) (m : Eval α) (s : Session),
      (m (s.bindSpecials made).2).EndsAs
        (fun t => ∀ name ∈ made.map Prod.fst, s.Reinstated name t) (withDynamic made m s)) ∧
    (∀ (spec form : Value) (body : List Value) (before after : List (String × Option Value))
      (name : String) (made : List (String × Session)) (frame inner : Nat) (flow : Flow)
      (s s₀ s₁ s₂ s₃ : Session),
      bindings spec s = .ok (before ++ (name, some form) :: after) s₀ →
      alloc (·.childFrame frame) s₀ = .ok inner s₁ →
      sequenceBindings I inner before s₁ = .ok made s₂ →
      I.eval form inner s₂ = .exit flow s₃ →
        ∃ t, letStar I (spec :: body) frame s = .exit flow t ∧ AllReinstated made t) := by
  refine ⟨endsAs_withDynamic, ?_⟩
  intro spec form body before after name made frame inner flow s s₀ s₁ s₂ s₃ parsed entered
    made_eq left
  have stops : letSequence I inner body ((name, some form) :: after) s₂ = .exit flow s₃ := by
    rw [letSequence]
    exact bind_of_exit _ left
  have whole := endsAs_letSequence body ((name, some form) :: after) made_eq
  have unfolded : letStar I (spec :: body) frame s =
      letSequence I inner body (before ++ (name, some form) :: after) s₁ :=
    (bind_of_ok _ parsed).trans (bind_of_ok _ entered)
  rw [stops] at whole
  rw [unfolded]
  generalize letSequence I inner body (before ++ (name, some form) :: after) s₁ = ended at whole
  cases whole with
  | exit _ _ holds => exact ⟨_, rfl, holds⟩

/-- `(let* ((x 2) (y z)))` with `x` special and `z` without a value leaves `x` at 1. -/
theorem reinstated_bindings_void :
    let s : Session :=
      { globals := .ofList [("x", .int 1)], specials := .ofList [("x", ())]
        store := { pairs := #[⟨.symbol "x", .cons 1⟩, ⟨.int 2, .nil⟩, ⟨.symbol "y", .cons 3⟩,
          ⟨.symbol "z", .nil⟩, ⟨.cons 0, .cons 5⟩, ⟨.cons 2, .nil⟩] } }
    ∃ flow t, letStar (.ofLevel 1) [.cons 4] 0 s = .exit flow t ∧
      t.globals.get? "x" = some (.int 1) := by
  intro s
  obtain ⟨t, left, back⟩ := (reinstated_bindings (.ofLevel 1)).2 (.cons 4) (.symbol "z") []
    [("x", some (.int 2))] [] "y" [("x", _)] 0 _ _ s _ _ _ _ rfl rfl rfl rfl
  exact ⟨_, t, left, (back "x" _ rfl).globals_eq rfl⟩

end Sequence

open Eval.Restores (kept_of_ok kept_of_exit)

variable {I : Interp} {x : String} {v : Value} {frame : Nat} {s s₀ s₁ s₂ s₃ : Session}
  {body : List Value}

/-- A step under one dynamic binding sees the special variable as what it was bound to. -/
theorem enters_withDynamic {α : Type} (next : Eval α) (frame : Nat)
    (inOrder : s.workspace.WellFormed) (special : s.isSpecial x = true) :
    Enters next frame x v s (withDynamic [(x, v)] next s) := by
  have outer := (Session.outerValue?_bindSpecials inOrder [(x, v)] x).trans
    (congrArg (Option.or · _) (lastBound?_concat [] x v))
  have stillSpecial := (s.isSpecial_bindSpecials [(x, v)] x).trans special
  obtain ⟨globals, workspace, only⟩ := s.bindSpecials_eq [(x, v)]
  refine ⟨_, _, withDynamic_eq _ _ _, ?_, ?_, Session.yields_of_valueIn? ?_⟩
  · rw [only]
  · rw [only]
  · exact (Session.valueIn?_of_isSpecial stillSpecial frame).trans outer

/-! ## `let` -/

/-- Initial forms are evaluated from first to last. -/
theorem letValues_append (dynamic lexical : List (String × Value))
    (before rest : List (String × Option Value)) :
    letValues I frame dynamic lexical (before ++ rest) =
      letValues I frame dynamic lexical before >>= fun sorted =>
        letValues I frame sorted.1.reverse sorted.2.reverse rest := by
  induction before generalizing dynamic lexical with
  | nil =>
      show _ = letValues I frame dynamic.reverse.reverse lexical.reverse.reverse rest
      rw [List.reverse_reverse, List.reverse_reverse]
      rfl
  | cons binding before ih =>
      obtain ⟨name, form⟩ := binding
      show letValues I frame dynamic lexical ((name, form) :: (before ++ rest)) = _
      rw [letValues, letValues, bind_assoc]
      refine bind_congr fun value => ?_
      rw [bind_assoc]
      refine bind_congr fun now => ?_
      split <;> exact ih _ _

/-- Bindings of other variables do not matter for a variable. -/
theorem lastBound?_letValues {dynamic lexical dynamic' lexical' : List (String × Value)}
    {rest : List (String × Option Value)} (others : x ∉ rest.map Prod.fst)
    (sorted : letValues I frame dynamic lexical rest s = .ok (dynamic', lexical') s₁) :
    lastBound? dynamic' x = lastBound? dynamic.reverse x ∧
      lastBound? lexical' x = lastBound? lexical.reverse x := by
  induction rest generalizing dynamic lexical s with
  | nil => cases sorted; exact ⟨rfl, rfl⟩
  | cons binding rest ih =>
      obtain ⟨name, form⟩ := binding
      have different : name ≠ x := fun same => others (same ▸ List.mem_cons_self)
      have later : x ∉ rest.map Prod.fst := fun member => others (List.mem_cons_of_mem _ member)
      have skipped (value : Value) (bindings : List (String × Value)) :
          lastBound? ((name, value) :: bindings).reverse x = lastBound? bindings.reverse x := by
        rw [List.reverse_cons]
        exact lastBound?_append_of_notMem (by simpa using different.symm) _
      rw [letValues] at sorted
      obtain ⟨value, s', -, sorted⟩ := ok_of_bind sorted
      obtain ⟨_, _, ⟨⟩, sorted⟩ := ok_of_bind sorted
      split at sorted
      · exact ⟨(ih later sorted).1.trans (skipped value dynamic), (ih later sorted).2⟩
      · exact ⟨(ih later sorted).1, (ih later sorted).2.trans (skipped value lexical)⟩

/-- The body of a `let` sees a variable as the value of its initial form, if evaluating the
initial forms after that one does not make the variable special. -/
theorem runsWith_letForm [I.Restores] {spec : Value} {form : Option Value}
    {before after : List (String × Option Value)}
    {earlier sorted : List (String × Value) × List (String × Value)}
    (inOrder : s.workspace.WellFormed)
    (read : bindings spec s = .ok (before ++ (x, form) :: after) s₀)
    (last : x ∉ after.map Prod.fst)
    (first : letValues I frame [] [] before s₀ = .ok earlier s₁)
    (evaluated : initial I frame form s₁ = .ok v s₂)
    (all : letValues I frame [] [] (before ++ (x, form) :: after) s₀ = .ok sorted s₃)
    (kind : s₃.isSpecial x = s₂.isSpecial x) :
    I.RunsWith body x v s₃ (letForm I (spec :: body) frame s) := by
  obtain ⟨dynamic, lexical⟩ := sorted
  have called : letForm I (spec :: body) frame s =
      withDynamic dynamic (I.evalBody s₃.store.frames.size body)
        { s₃ with store := (s₃.store.childFrameWith frame lexical).2 } :=
    (bind_of_ok _ read).trans ((bind_of_ok _ all).trans rfl)
  have start := kept_of_ok inOrder read
  have ended := kept_of_ok start.wellFormed all
  have sortedIn : lastBound? (if s₃.isSpecial x then dynamic else lexical) x = some v := by
    rw [letValues_append, bind_of_ok _ first, letValues, bind_of_ok _ evaluated,
      bind_session _ s₂] at all
    rw [kind]
    cases special : s₂.isSpecial x with
    | true =>
        rw [if_pos special] at all
        rw [if_pos rfl, (lastBound?_letValues last all).1, List.reverse_cons]
        exact lastBound?_concat _ x v
    | false =>
        rw [if_neg (ne_true_of_eq_false special)] at all
        rw [if_neg Bool.false_ne_true, (lastBound?_letValues last all).2, List.reverse_cons]
        exact lastBound?_concat _ x v
  rw [called]
  exact runsWith_withDynamic ended.wellFormed frame sortedIn

/-! ## `let*` -/

instance [I.Restores] (rest : List (String × Option Value)) :
    Restores (sequenceBindings I frame rest) := by
  induction rest with
  | nil => exact Restores.pure _
  | cons binding rest ih =>
      have bound (name : String) (value : Value) :
          Session.RestoredBy fun s => (s.bindSpecial name value).2 :=
        ⟨fun _ wf => Session.kept_bindSpecial wf name value⟩
      unfold sequenceBindings
      infer_instance

/-- What comes next, a further binding or the body, sees the variable that was bound last
as what it was bound to. -/
theorem enters_letSequence {form : Option Value} {rest : List (String × Option Value)}
    (evaluated : initial I frame form s = .ok v s₁) (inOrder : s₁.workspace.WellFormed)
    (there : frame < s₁.store.frames.size) :
    Enters (letSequence I frame body rest) frame x v s₁
      (letSequence I frame body ((x, form) :: rest) s) := by
  rw [letSequence, bind_of_ok _ evaluated, bind_session _ s₁]
  cases special : s₁.isSpecial x with
  | true => exact enters_withDynamic _ frame inOrder special
  | false =>
      rw [if_neg Bool.false_ne_true]
      have seen : (s₁.store.defineIn frame x v).lookupIn? frame x = some v :=
        Store.lookupIn?_defineIn there
      have yields : { s₁ with store := s₁.store.defineIn frame x v }.FrameYields x frame v :=
        Session.frameYields_of_lookupIn? seen
      exact ⟨_, [], (ensuring_nil _ _).symm, rfl, rfl, yields.ordinary special⟩

/-- The frame of a `let*` is there before its first initial form is evaluated and stays. -/
theorem endsAs_letStar [I.Restores] {spec : Value} {form : Option Value}
    {before rest : List (String × Option Value)} {made : List (String × Session)} {inner : Nat}
    (inOrder : s.workspace.WellFormed)
    (read : bindings spec s = .ok (before ++ (x, form) :: rest) s₀)
    (framed : alloc (·.childFrame frame) s₀ = .ok inner s₁)
    (entered : sequenceBindings I inner before s₁ = .ok made s₂)
    (evaluated : initial I inner form s₂ = .ok v s₃) :
    ∃ o, Enters (letSequence I inner body rest) inner x v s₃ o ∧
      o.EndsAs (AllReinstated made) (letStar I (spec :: body) frame s) := by
  have unfolded : letStar I (spec :: body) frame s =
      letSequence I inner body (before ++ (x, form) :: rest) s₁ :=
    (bind_of_ok _ read).trans (bind_of_ok _ framed)
  have there : inner < s₁.store.frames.size := by
    cases framed
    simp
  have start := (kept_of_ok inOrder read).trans
    (kept_of_ok (kept_of_ok inOrder read).wellFormed framed)
  have bound := kept_of_ok start.wellFormed entered
  have now := kept_of_ok bound.wellFormed evaluated
  rw [unfolded]
  exact ⟨_, enters_letSequence evaluated now.wellFormed
    (Nat.lt_of_lt_of_le there (bound.trans now).frames_le), endsAs_letSequence body _ entered⟩

/-! ## Handlers -/

/-- The body of a handler sees the variable as what is handed to it. -/
theorem runsWith_runHandler {handler : Value} (notNil : x ≠ "nil")
    (inOrder : s.workspace.WellFormed) :
    I.RunsWith ((s.store.list? (s.store.cdr handler)).getD []) x v s
      (runHandler I frame handler x v s) := by
  have called : runHandler I frame handler x v s =
      if s.isSpecial x then
        withDynamic [(x, v)] (I.evalBody frame ((s.store.list? (s.store.cdr handler)).getD [])) s
      else
        withDynamic [] (I.evalBody s.store.frames.size
          ((s.store.list? (s.store.cdr handler)).getD []))
          { s with store := (s.store.childFrameWith frame [(x, v)]).2 } := by
    unfold runHandler
    refine (bind_of_ok _ rfl).trans ((bind_of_ok _ rfl).trans ?_)
    rw [if_neg notNil]
    refine (bind_session _ s).trans ?_
    cases s.isSpecial x <;> rfl
  rw [called]
  cases special : s.isSpecial x with
  | true => exact ⟨frame, enters_withDynamic _ frame inOrder special⟩
  | false =>
      rw [if_neg Bool.false_ne_true]
      refine runsWith_withDynamic inOrder frame ?_
      rw [special]
      exact lastBound?_concat [] x v

section ConditionCase

variable {place form handler : Value} {handlers : List Value}
  (named : place.symbolName? = some x) (lists : handlers.find? (!·.isList) = none)

include named lists

/-- Once its form has come to an end, `condition-case` goes on with that. -/
theorem conditionCase_eq {ended : Except Flow Value}
    (attempted : attempt (I.eval form frame) s = .ok ended s₁) :
    conditionCase I (place :: form :: handlers) frame s =
      (match ended with
        | .ok value =>
          match handlers.find? fun handler => (s₁.store.car handler).isNamed ":success" with
          | some handler => runHandler I frame handler x value
          | none => pure value
        | .error flow =>
          match flow.condition?.bind fun condition => handlerFor? s₁ condition handlers with
          | some handler => alloc flow.record >>= runHandler I frame handler x
          | none => leave flow) s₁ := by
  unfold conditionCase
  have arity : formArity "condition-case" (place :: form :: handlers) 2 none s = .ok () s :=
    formArity_ok (by simp) rfl _ s
  refine (bind_of_ok _ arity).trans ((bind_of_ok _ (symbolName_of_symbolName? named s)).trans ?_)
  simp only [List.getD_cons_succ, List.getD_cons_zero, List.drop_succ_cons, List.drop_zero, lists]
  refine (bind_of_ok _ attempted).trans ?_
  cases ended with
  | ok value => exact (bind_store _ s₁).trans rfl
  | error flow => exact (bind_session _ s₁).trans rfl

variable [I.Restores] (inOrder : s.workspace.WellFormed) (notNil : x ≠ "nil")

include inOrder notNil

/-- The body of the handler for a condition sees the variable as the condition's record. -/
theorem runsWith_conditionCase_handled {flow : Flow} {record : Value}
    (left : I.eval form frame s = .exit flow s₁)
    (found : (flow.condition?.bind fun c => handlerFor? s₁ c handlers) = some handler)
    (recorded : alloc flow.record s₁ = .ok record s₂) :
    I.RunsWith ((s₂.store.list? (s₂.store.cdr handler)).getD []) x record s₂
      (conditionCase I (place :: form :: handlers) frame s) := by
  have tried := kept_of_exit inOrder left
  have made := kept_of_ok tried.wellFormed recorded
  rw [conditionCase_eq named lists (attempt_of_exit left)]
  simp only [found]
  rw [bind_of_ok _ recorded]
  exact runsWith_runHandler notNil made.wellFormed

/-- The body of the handler for success sees the variable as the value of the form. -/
theorem runsWith_conditionCase_success (returned : I.eval form frame s = .ok v s₁)
    (found : (handlers.find? fun h => (s₁.store.car h).isNamed ":success") = some handler) :
    I.RunsWith ((s₁.store.list? (s₁.store.cdr handler)).getD []) x v s₁
      (conditionCase I (place :: form :: handlers) frame s) := by
  rw [conditionCase_eq named lists (attempt_of_ok returned)]
  simp only [found]
  exact runsWith_runHandler notNil (kept_of_ok inOrder returned).wellFormed

end ConditionCase

end EditorLisp.Forms
