import EditorLisp.Proofs.Forms.Assignment
import EditorLisp.Proofs.Forms.Clause
import EditorLisp.Proofs.Forms.Loop
import EditorLisp.Proofs.Interpreter

/-!
# What a variable is where it is bound

Functions, `let` and `let*`, handlers and the clauses of `pcase` bind a variable in the way
that look-up goes by: the special ones dynamically and the others in a frame.  Their bodies
see every variable as what it was bound to.  Loops and the guards of patterns bind in a
frame only.  What they run sees an ordinary variable as what it was bound to, and a special
one as if nothing had bound it.
-/

namespace EditorLisp.Forms

open Eval

/-- What a variable is inside of the constructs that bind it, each started in a session
whose workspace is in order. -/
structure Scoping (I : Interp) (x : String) : Prop where
  /-- In the body of a function a parameter is the argument that it was paired with. -/
  call {c : Closure} {args : List Value} {bindings : List (String × Value)} {v : Value}
    {s s₁ : Session} (inOrder : s.workspace.WellFormed)
    (accepted : ¬(args.length < c.params.least ∨ c.params.most?.any (· < args.length)))
    (paired : argumentBindings c args s = .ok bindings s₁)
    (bound : lastBound? bindings x = some v) :
    I.RunsWith c.body x v s₁ (applyClosure I c args s)
  /-- In the body of a `let` a variable is the value of its initial form, unless evaluating
  the initial forms after that one makes the variable special. -/
  let_ {spec : Value} {body : List Value} {form : Option Value}
    {before after : List (String × Option Value)}
    {earlier sorted : List (String × Value) × List (String × Value)} {v : Value} {frame : Nat}
    {s s₀ s₁ s₂ s₃ : Session} (inOrder : s.workspace.WellFormed)
    (read : bindings spec s = .ok (before ++ (x, form) :: after) s₀)
    (last : x ∉ after.map Prod.fst)
    (first : letValues I frame [] [] before s₀ = .ok earlier s₁)
    (evaluated : initial I frame form s₁ = .ok v s₂)
    (all : letValues I frame [] [] (before ++ (x, form) :: after) s₀ = .ok sorted s₃)
    (kind : s₃.isSpecial x = s₂.isSpecial x) :
    I.RunsWith body x v s₃ (letForm I (spec :: body) frame s)
  /-- After its binding in a `let*` a variable is the value of its initial form, in the body
  or, if there are more bindings, in the next initial form. -/
  letStar {spec : Value} {body : List Value} {form : Option Value}
    {before rest : List (String × Option Value)} {made : List (String × Session)} {v : Value}
    {frame inner : Nat} {s s₀ s₁ s₂ s₃ : Session} (inOrder : s.workspace.WellFormed)
    (read : bindings spec s = .ok (before ++ (x, form) :: rest) s₀)
    (framed : alloc (·.childFrame frame) s₀ = .ok inner s₁)
    (entered : sequenceBindings I inner before s₁ = .ok made s₂)
    (evaluated : initial I inner form s₂ = .ok v s₃) :
    ∃ o, Enters (letSequence I inner body rest) inner x v s₃ o ∧
      o.EndsAs (AllReinstated made) (Forms.letStar I (spec :: body) frame s)
  /-- In the body of the handler for a condition the variable is the condition's record. -/
  handled {place form handler record : Value} {handlers : List Value} {flow : Flow} {frame : Nat}
    {s s₁ s₂ : Session} (inOrder : s.workspace.WellFormed) (named : place.symbolName? = some x)
    (notNil : x ≠ "nil") (lists : handlers.find? (!·.isList) = none)
    (left : I.eval form frame s = .exit flow s₁)
    (found : (flow.condition?.bind fun c => handlerFor? s₁ c handlers) = some handler)
    (recorded : alloc flow.record s₁ = .ok record s₂) :
    I.RunsWith ((s₂.store.list? (s₂.store.cdr handler)).getD []) x record s₂
      (conditionCase I (place :: form :: handlers) frame s)
  /-- In the body of the handler for success the variable is the value of the form. -/
  success {place form handler v : Value} {handlers : List Value} {frame : Nat} {s s₁ : Session}
    (inOrder : s.workspace.WellFormed) (named : place.symbolName? = some x) (notNil : x ≠ "nil")
    (lists : handlers.find? (!·.isList) = none) (returned : I.eval form frame s = .ok v s₁)
    (found : (handlers.find? fun h => (s₁.store.car h).isNamed ":success") = some handler) :
    I.RunsWith ((s₁.store.list? (s₁.store.cdr handler)).getD []) x v s₁
      (conditionCase I (place :: form :: handlers) frame s)
  /-- In the body of the first clause that matches a variable is what the match has bound. -/
  clause {form subject clause v : Value} {earlier later : List Value} {pattern : Pattern}
    {bound : Bound} {frame : Nat} {s s₀ s₁ s₂ s₃ : Session} (inOrder : s.workspace.WellFormed)
    (evaluated : I.eval form frame s = .ok subject s₀)
    (passed : Passed I frame subject earlier s₀ s₁)
    (read : readPattern I.fuel (s₁.store.car clause) s₁ = .ok pattern s₂)
    (matched : pattern.match? I frame subject [] s₂ = .ok (some bound) s₃)
    (seen : lastBound? bound x = some v) :
    I.RunsWith ((s₃.store.list? (s₃.store.cdr clause)).getD []) x v s₃
      (pcase I (form :: (earlier ++ clause :: later)) frame s)
  /-- A symbol as a pattern binds the value it is matched with, and in a guard after it the
  variable is that value, unless it is special. -/
  guard {between : List Pattern} {bound bound' : Bound} {v : Value} {frame : Nat} {s s₁ : Session}
    (form : Value) (rest : List Pattern)
    (matched : matchAll I frame (.bind x :: between) v bound s = .ok (some bound') s₁) :
    ∃ more, bound' = bound ++ (x, v) :: more ∧
      (x ∉ more.map Prod.fst → ∃ inner, EntersFramed (I.eval form inner) inner x v s₁
        (matchAll I frame (.bind x :: between ++ .guard form :: rest) v bound s))
  /-- At the start of each round of `dotimes` the variable is the count, unless it is
  special. -/
  dotimes {place form spec : Value} {result body : List Value} {n : Int64} {frame : Nat}
    {s s₁ : Session} (inOrder : s.workspace.WellFormed)
    (listed : s.store.list? spec = some (place :: form :: result)) (short : result.length ≤ 1)
    (named : place.symbolName? = some x) (counts : I.eval form frame s = .ok (.int n) s₁) :
    ∃ inner t,
      LoopsOver I body x (counted n.toInt.toNat 0) (Forms.dotimes I (spec :: body) frame s) inner t
  /-- At the start of each round of `dolist` the variable is the element, unless it is
  special. -/
  dolist {place form spec sequence : Value} {result body items : List Value} {frame : Nat}
    {s s₁ s₂ : Session} (inOrder : s.workspace.WellFormed)
    (listed : s.store.list? spec = some (place :: form :: result)) (short : result.length ≤ 1)
    (named : place.symbolName? = some x) (evaluated : I.eval form frame s = .ok sequence s₁)
    (elements : sequenceElements sequence s₁ = .ok items s₂) :
    ∃ inner t, LoopsOver I body x items (Forms.dolist I (spec :: body) frame s) inner t
  /-- After its `with` clause a variable of `cl-loop` is the value of its form, unless it is
  special. -/
  with_ {forms : List Value} {spec : LoopSpec} {action : LoopAction} {form : Option Value}
    {before rest : List (String × Option Value)} {v : Value} {frame : Nat}
    {s s₀ s₁ s₂ : Session} (inOrder : s.workspace.WellFormed)
    (read : LoopSpec.ofForms forms s = .ok spec s₀) (acts : spec.action = some action)
    (clauses : spec.with_ = before ++ (x, form) :: rest)
    (first : defineWith I s₀.store.frames.size before (s₀.withFrame frame) = .ok () s₁)
    (evaluated : initial I s₀.store.frames.size form s₁ = .ok v s₂) :
    EntersFramed (defineWith I s₀.store.frames.size rest) s₀.store.frames.size x v s₂
      (clLoop I forms frame s)
  /-- At the start of each round of `cl-loop` the variable of a `for` clause that counts or
  runs through a sequence is the count or the element, unless it is special. -/
  for_ {forms : List Value} {spec : LoopSpec} {action : LoopAction} {limit : Option Nat}
    {sequences : List (String × List Value)} {counters : List Counter} {frame : Nat}
    {s s₀ s₁ : Session} (inOrder : s.workspace.WellFormed)
    (read : LoopSpec.ofForms forms s = .ok spec s₀) (acts : spec.action = some action)
    (prepared : prepareLoop I s₀.store.frames.size spec (s₀.withFrame frame) =
      .ok (limit, sequences, counters) s₁) :
    clLoop I forms frame s =
        (rounds I s₀.store.frames.size spec action maxRounds limit sequences counters {} >>=
          action.value) s₁ ∧
      ∀ defined t v,
        RoundStarts I s₀.store.frames.size spec action maxRounds limit sequences counters {} s₁
            defined t →
          lastBound? defined x = some v →
            (∃ after, clLoop I forms frame s =
              (assignVariables I s₀.store.frames.size spec.assigns >>= after) t) ∧
            t.FrameYields x s₀.store.frames.size v
  /-- After its assignment in a round the variable of a `for` clause with a form is the
  value of that form, unless it is special. -/
  assigned {form v : Value} {before rest : List (String × Value)} {frame : Nat}
    {s s₁ s₂ : Session} (inOrder : s.workspace.WellFormed) (there : frame < s.store.frames.size)
    (first : assignVariables I frame before s = .ok () s₁)
    (evaluated : I.eval form frame s₁ = .ok v s₂) :
    EntersFramed (assignVariables I frame rest) frame x v s₂
      (assignVariables I frame (before ++ (x, form) :: rest) s)

/-- Every construct shows a variable as what it was bound to, but for special variables of
loops and guards, and for one that a `let` makes special while it binds it. -/
theorem scoping (level : Nat) (x : String) : Scoping (.ofLevel level) x where
  call inOrder accepted paired bound := runsWith_applyClosure accepted paired inOrder bound
  let_ := runsWith_letForm
  letStar := endsAs_letStar
  handled inOrder named notNil lists :=
    runsWith_conditionCase_handled named lists inOrder notNil
  success inOrder named notNil lists :=
    runsWith_conditionCase_success named lists inOrder notNil
  clause := runsWith_pcase
  guard := matchAll_bind_guard
  dotimes inOrder listed short named := loopsOver_dotimes listed short named inOrder
  dolist inOrder listed short named := loopsOver_dolist listed short named inOrder
  with_ inOrder read acts := entersFramed_with read acts inOrder
  for_ inOrder read acts := clLoop_rounds read acts inOrder
  assigned := entersFramed_assigned

/-- In `(let ((x 1)) x)` the body sees the special variable `x` as 1. -/
theorem scoping_let_special :
    let s : Session :=
      { globals := .ofList [("x", .int 0)], specials := .ofList [("x", ())]
        store := { pairs := #[⟨.symbol "x", .cons 1⟩, ⟨.int 1, .nil⟩, ⟨.cons 0, .nil⟩] } }
    (Interp.ofLevel 1).RunsWith [.symbol "x"] "x" (.int 1) s
      (letForm (.ofLevel 1) [.cons 2, .symbol "x"] 0 s) := by
  intro s
  have read : bindings (.cons 2) s = .ok ([] ++ ("x", some (.int 1)) :: []) s := rfl
  exact (scoping 1 "x").let_ Workspace.wellFormed_initial read List.not_mem_nil rfl rfl rfl rfl

/-- Loops and guards find the global value of a special variable, and so does the body of a
`let` that declares its variable special on the way. -/
theorem scoping_special :
    integerAfter? "(defvar x 9) (setq n (cl-loop for x below 2 sum x))" "n" = some 18 ∧
      integerAfter? "(defvar x 9) (setq n (pcase 5 ((and x (guard (= x 5))) 1) (_ 0)))" "n" =
        some 0 ∧
      integerAfter? "(setq n (let ((x 1) (y (defvar x 5))) x))" "n" = some 5 := by
  decide +kernel

end EditorLisp.Forms
