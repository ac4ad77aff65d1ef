import EditorLisp.Forms.Loop
import EditorLisp.Proofs.Forms.Rounds

/-!
# Rounds of loops with clauses

`cl-loop` has one frame for the variables of all its clauses.  Those of `with` are defined
before the first round, those that run through sequences or count at the start of each
round, and after these, one after the other, those that are assigned anew.
-/

namespace EditorLisp

/-- A session with a new frame. -/
def Session.withFrame (s : Session) (parent : Nat) : Session :=
  { s with store := (s.store.childFrame parent).2 }

theorem Session.size_frames_withFrame (s : Session) (parent : Nat) :
    s.store.frames.size < (s.withFrame parent).store.frames.size := by
  simp [Session.withFrame, Store.childFrame]

namespace Forms

open Eval
open Eval.Restores (kept_of_ok)

variable {I : Interp} {frame : Nat} {x : String} {v : Value} {s s₀ s₁ s₂ t : Session}
  {spec : LoopSpec} {action : LoopAction}

/-! ## One variable after the other -/

theorem defineWith_cons (y : String) (init : Option Value) (rest : List (String × Option Value)) :
    defineWith I frame ((y, init) :: rest) = (do
      let value ← initial I frame init
      modifyStore (·.defineIn frame y value)
      defineWith I frame rest) := by
  cases init <;> rfl

theorem defineWith_append {form : Option Value} {before : List (String × Option Value)}
    (rest : List (String × Option Value))
    (first : defineWith I frame before s = .ok () s₁)
    (evaluated : initial I frame form s₁ = .ok v s₂) :
    defineWith I frame (before ++ (x, form) :: rest) s =
      defineWith I frame rest (startRound frame [(x, v)] s₂) := by
  induction before generalizing s with
  | nil =>
      cases first
      show defineWith I frame ((x, form) :: rest) s₁ = _
      rw [defineWith_cons]
      exact (bind_of_ok _ evaluated).trans rfl
  | cons binding before ih =>
      obtain ⟨y, init⟩ := binding
      rw [defineWith_cons] at first
      obtain ⟨w, s', known, first⟩ := ok_of_bind first
      obtain ⟨_, s'', defined, first⟩ := ok_of_bind first
      show defineWith I frame ((y, init) :: (before ++ (x, form) :: rest)) s = _
      rw [defineWith_cons]
      exact (bind_of_ok _ known).trans ((bind_of_ok _ defined).trans (ih first))

theorem assignVariables_append {form : Value} {before : List (String × Value)}
    (rest : List (String × Value))
    (first : assignVariables I frame before s = .ok () s₁)
    (evaluated : I.eval form frame s₁ = .ok v s₂) :
    assignVariables I frame (before ++ (x, form) :: rest) s =
      assignVariables I frame rest (startRound frame [(x, v)] s₂) := by
  induction before generalizing s with
  | nil =>
      cases first
      show assignVariables I frame ((x, form) :: rest) s₁ = _
      rw [assignVariables]
      exact (bind_of_ok _ evaluated).trans rfl
  | cons binding before ih =>
      obtain ⟨y, init⟩ := binding
      rw [assignVariables] at first
      obtain ⟨w, s', known, first⟩ := ok_of_bind first
      obtain ⟨_, s'', defined, first⟩ := ok_of_bind first
      show assignVariables I frame ((y, init) :: (before ++ (x, form) :: rest)) s = _
      rw [assignVariables]
      exact (bind_of_ok _ known).trans ((bind_of_ok _ defined).trans (ih first))

/-- What follows the assignment of a variable in a round starts with it in force, unless it
is special. -/
theorem entersFramed_assigned [I.Restores] {form : Value} {before rest : List (String × Value)}
    (inOrder : s.workspace.WellFormed) (there : frame < s.store.frames.size)
    (first : assignVariables I frame before s = .ok () s₁)
    (evaluated : I.eval form frame s₁ = .ok v s₂) :
    EntersFramed (assignVariables I frame rest) frame x v s₂
      (assignVariables I frame (before ++ (x, form) :: rest) s) := by
  have before := kept_of_ok inOrder first
  have now := before.trans (kept_of_ok before.wellFormed evaluated)
  have alone := congrFun (bind_pure (assignVariables I frame rest)).symm
  exact entersFramed_startRound (Nat.lt_of_lt_of_le there now.frames_le)
    ((assignVariables_append rest first evaluated).trans (alone _))

/-! ## Rounds -/

/-- The variables that are defined at the start of a round. -/
def heads (sequences : List (String × List Value)) (counters : List Counter) :
    List (String × Value) :=
  sequences.map (fun q => (q.1, q.2.headD .nil)) ++ counters.map fun c => (c.var, .int c.value)

/-- Whether a clause ends the loop before a round. -/
def isOver (limit : Option Nat) (sequences : List (String × List Value)) (counters : List Counter) :
    Bool :=
  limit == some 0 || sequences.any (·.2.isEmpty) || counters.any (!·.inRange)

/-- A round starts with its variables defined. -/
theorem rounds_succ {limit : Option Nat} {sequences : List (String × List Value)}
    {counters : List Counter} (goesOn : isOver limit sequences counters = false) (room : Nat)
    (r : LoopResult) (s : Session) :
    rounds I frame spec action (room + 1) limit sequences counters r s =
      (do
        assignVariables I frame spec.assigns
        if ← allHold I frame spec.conditions then
          let r ← action.perform I frame r
          rounds I frame spec action room (limit.map (· - 1))
            (sequences.map fun (var, items) => (var, items.drop 1)) (counters.map Counter.advance) r
        else return r : Eval LoopResult) (startRound frame (heads sequences counters) s) := by
  have defined : s.store.defineAll frame (heads sequences counters) =
      counters.foldl (fun st c => st.defineIn frame c.var (.int c.value))
        (sequences.foldl (fun st (y, items) => st.defineIn frame y (items.headD .nil)) s.store) := by
    rw [Store.defineAll, heads, List.foldl_append, List.foldl_map, List.foldl_map]
  unfold isOver at goesOn
  rw [startRound, defined, rounds, goesOn, if_neg Bool.false_ne_true]
  rfl

/-- In a loop that starts from a session, a round starts with some variables defined. -/
inductive RoundStarts (I : Interp) (frame : Nat) (spec : LoopSpec) (action : LoopAction) :
    Nat → Option Nat → List (String × List Value) → List Counter → LoopResult → Session →
      List (String × Value) → Session → Prop
  | here {limit : Option Nat} {sequences : List (String × List Value)} {counters : List Counter}
      (room : Nat) (r : LoopResult) (s : Session) :
      isOver limit sequences counters = false →
        RoundStarts I frame spec action (room + 1) limit sequences counters r s
          (heads sequences counters) (startRound frame (heads sequences counters) s)
  | later {limit : Option Nat} {sequences : List (String × List Value)} {counters : List Counter}
      {room : Nat} {r r' : LoopResult} {s s₁ s₂ s₃ t : Session} {defined : List (String × Value)} :
      isOver limit sequences counters = false →
        assignVariables I frame spec.assigns (startRound frame (heads sequences counters) s) =
            .ok () s₁ →
          allHold I frame spec.conditions s₁ = .ok true s₂ →
            action.perform I frame r s₂ = .ok r' s₃ →
              RoundStarts I frame spec action room (limit.map (· - 1))
                  (sequences.map fun (var, items) => (var, items.drop 1))
                  (counters.map Counter.advance) r' s₃ defined t →
                RoundStarts I frame spec action (room + 1) limit sequences counters r s defined t

namespace RoundStarts

variable {room : Nat} {limit : Option Nat} {sequences : List (String × List Value)}
  {counters : List Counter} {r : LoopResult} {defined : List (String × Value)}

/-- The induction is on the rounds before, each of which leaves what it found in order. -/
theorem kept [I.Restores] (inOrder : s.workspace.WellFormed)
    (starts : RoundStarts I frame spec action room limit sequences counters r s defined t) :
    ∃ s', s.Kept s' ∧ t = startRound frame defined s' := by
  induction starts with
  | here _ _ s => exact ⟨s, .refl inOrder, rfl⟩
  | @later _ sequences counters _ _ _ s s₁ s₂ s₃ _ _ _ assigned held performed _ ih =>
      have started : s.Kept (startRound frame (heads sequences counters) s) :=
        .of_store inOrder (Store.retains_defineAll ..)
      have assigned := started.trans (kept_of_ok started.wellFormed assigned)
      have held := assigned.trans (kept_of_ok assigned.wellFormed held)
      have performed := held.trans (kept_of_ok held.wellFormed performed)
      obtain ⟨s', later, same⟩ := ih performed.wellFormed
      exact ⟨s', performed.trans later, same⟩

/-- A loop comes down to going on from where one of its rounds starts. -/
theorem reached
    (starts : RoundStarts I frame spec action room limit sequences counters r s defined t) :
    ∃ after, rounds I frame spec action room limit sequences counters r s =
      (assignVariables I frame spec.assigns >>= after) t := by
  induction starts with
  | here room r s goesOn => exact ⟨_, rounds_succ goesOn room r s⟩
  | @later _ _ _ room r _ s _ _ _ _ _ goesOn assigned held performed _ ih =>
      obtain ⟨after, reached⟩ := ih
      refine ⟨after, (rounds_succ goesOn room r s).trans ((bind_of_ok _ assigned).trans ?_)⟩
      exact (bind_of_ok _ held).trans ((bind_of_ok _ performed).trans reached)

/-- A round starts with the variables in force that it defines, special ones excepted. -/
theorem frameYields [I.Restores] (inOrder : s.workspace.WellFormed)
    (there : frame < s.store.frames.size)
    (starts : RoundStarts I frame spec action room limit sequences counters r s defined t)
    (bound : lastBound? defined x = some v) : t.FrameYields x frame v := by
  obtain ⟨s', kept, rfl⟩ := starts.kept inOrder
  exact frameYields_startRound (Nat.lt_of_lt_of_le there kept.frames_le) bound

end RoundStarts

/-! ## The whole loop -/

/-- What is evaluated before the first round: the limit, the sequences and the counts. -/
def prepareLoop (I : Interp) (frame : Nat) (spec : LoopSpec) :
    Eval (Option Nat × List (String × List Value) × List Counter) := do
  defineWith I frame spec.with_
  let sequences ← spec.sequences.mapM fun (var, form) => do
    return (var, ← sequenceElements (← I.eval form frame))
  let counters ← spec.counts.mapM (·.begin I frame)
  let limit ← match spec.limit with
    | some form => do
      let n ← integer (← I.eval form frame)
      pure (some n.toInt.toNat)
    | none => pure none
  return (limit, sequences, counters)

instance [I.Restores] : Restores (prepareLoop I frame spec) := by
  unfold prepareLoop
  refine .after fun _ => .after fun sequences => .after fun counters => ?_
  dsimp only
  split <;> infer_instance

/-- The value of a loop after its last round. -/
def LoopAction.value (action : LoopAction) (r : LoopResult) : Eval Value :=
  match action with
  | .run _ => pure r.last
  | .sum _ => pure r.total
  | .collect _ => list r.collected.reverse

section Clauses

variable {forms : List Value} (read : LoopSpec.ofForms forms s = .ok spec s₀)
  (acts : spec.action = some action)
include read acts

/-- A loop that does something defines and evaluates what its clauses say and makes its
rounds, all in one new frame. -/
theorem clLoop_eq (I : Interp) (frame : Nat) :
    clLoop I forms frame s =
      (prepareLoop I s₀.store.frames.size spec >>= fun start =>
        rounds I s₀.store.frames.size spec action maxRounds start.1 start.2.1 start.2.2 {} >>=
          action.value)
        (s₀.withFrame frame) := by
  unfold clLoop
  refine (bind_of_ok _ read).trans ?_
  simp only [acts]
  have framed : alloc (·.childFrame frame) s₀ =
      .ok s₀.store.frames.size (s₀.withFrame frame) := rfl
  refine (bind_of_ok _ framed).trans ?_
  unfold prepareLoop LoopAction.value
  cases spec.limit <;> cases action <;> simp only [bind_assoc, pure_bind]

variable [I.Restores] (inOrder : s.workspace.WellFormed)
include inOrder

/-- What follows the definition of a `with` variable starts with it in force, unless it is
special. -/
theorem entersFramed_with {form : Option Value} {before rest : List (String × Option Value)}
    (with_ : spec.with_ = before ++ (x, form) :: rest)
    (first : defineWith I s₀.store.frames.size before (s₀.withFrame frame) = .ok () s₁)
    (evaluated : initial I s₀.store.frames.size form s₁ = .ok v s₂) :
    EntersFramed (defineWith I s₀.store.frames.size rest) s₀.store.frames.size x v s₂
      (clLoop I forms frame s) := by
  have start := (kept_of_ok inOrder read).wellFormed
  have before := kept_of_ok (s := s₀.withFrame frame) start first
  have now := before.trans (kept_of_ok before.wellFormed evaluated)
  have there := Nat.lt_of_lt_of_le (s₀.size_frames_withFrame frame) now.frames_le
  have called := clLoop_eq read acts I frame
  rw [prepareLoop, with_, bind_assoc] at called
  exact entersFramed_startRound there
    (called.trans (bind_of_eq _ (defineWith_append rest first evaluated)))

/-- Each round starts with the variables in force that it defines, special ones excepted. -/
theorem clLoop_rounds {limit : Option Nat} {sequences : List (String × List Value)}
    {counters : List Counter}
    (prepared : prepareLoop I s₀.store.frames.size spec (s₀.withFrame frame) =
      .ok (limit, sequences, counters) s₁) :
    clLoop I forms frame s =
        (rounds I s₀.store.frames.size spec action maxRounds limit sequences counters {} >>=
          action.value) s₁ ∧
      ∀ defined t v,
        RoundStarts I s₀.store.frames.size spec action maxRounds limit sequences counters {} s₁
            defined t →
          lastBound? defined x = some v →
            (∃ after, clLoop I forms frame s =
              (assignVariables I s₀.store.frames.size spec.assigns >>= after) t) ∧
            t.FrameYields x s₀.store.frames.size v := by
  have called := (clLoop_eq read acts I frame).trans (bind_of_ok _ prepared)
  refine ⟨called, fun defined t v starts bound => ⟨?_, ?_⟩⟩
  · obtain ⟨after, reached⟩ := starts.reached
    refine ⟨fun done => after done >>= action.value, called.trans ?_⟩
    rw [← bind_assoc]
    exact bind_of_eq _ reached
  · have start := (kept_of_ok inOrder read).wellFormed
    have now := kept_of_ok (s := s₀.withFrame frame) start prepared
    have there := Nat.lt_of_lt_of_le (s₀.size_frames_withFrame frame) now.frames_le
    exact starts.frameYields now.wellFormed there bound

end Clauses

end Forms

end EditorLisp
