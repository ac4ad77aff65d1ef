import EditorLisp.Proofs.Forms.Scope

/-!
# Rounds of loops

`dotimes` and `dolist` define their variable anew in one frame, round after round.  The
frame is all that they bind, so an ordinary variable has the value of its round whenever a
round starts, and a special one is not bound at all.  No step takes a frame away, so the one
of the loop is there in every round.
-/

namespace EditorLisp

namespace Store

/-- Define several names in a frame, one after the other. -/
def defineAll (st : Store) (i : Nat) (bindings : List (String × Value)) : Store :=
  bindings.foldl (fun st b => st.defineIn i b.1 b.2) st

theorem size_frames_defineAll (st : Store) (i : Nat) (bindings : List (String × Value)) :
    (st.defineAll i bindings).frames.size = st.frames.size := by
  unfold defineAll
  induction bindings generalizing st with
  | nil => rfl
  | cons b rest ih => exact (ih _).trans (size_frames_defineIn ..)

theorem retains_defineAll (st : Store) (i : Nat) (bindings : List (String × Value)) :
    st.Retains (st.defineAll i bindings) :=
  (KeepsObjects.foldl (fun _ => inferInstance) bindings).retains st

theorem varIn?_defineAll {st : Store} {i : Nat} (there : i < st.frames.size)
    (bindings : List (String × Value)) (name : String) :
    (st.defineAll i bindings).varIn? i name = (lastBound? bindings name).or (st.varIn? i name) := by
  unfold defineAll
  induction bindings generalizing st with
  | nil => rfl
  | cons b rest ih =>
      rw [List.foldl_cons, ih (by rwa [size_frames_defineIn]), varIn?_defineIn there,
        lastBound?_cons, Option.or_assoc]
      by_cases same : b.1 = name
      · rw [if_pos same, if_pos same]
        rfl
      · rw [if_neg same, if_neg same]
        rfl

end Store

namespace Forms

open Eval
open Eval.Restores (kept_of_ok)

variable {I : Interp} {frame : Nat} {x : String} {v : Value} {body : List Value}
  {s s₁ s₂ t : Session}

/-! ## Rounds over values -/

/-- Define the variables of a loop for a round. -/
def startRound (frame : Nat) (heads : List (String × Value)) (s : Session) : Session :=
  { s with store := s.store.defineAll frame heads }

/-- At the start of a round, what it defines is in force, special variables excepted. -/
theorem frameYields_startRound {heads : List (String × Value)}
    (there : frame < s.store.frames.size) (bound : lastBound? heads x = some v) :
    (startRound frame heads s).FrameYields x frame v := by
  refine Session.frameYields_of_lookupIn? (Store.lookupIn?_of_varIn? ?_)
  exact (Store.varIn?_defineAll there heads x).trans (by rw [bound, Option.some_or])

theorem entersFramed_startRound {α β : Type} {next : Eval α} {after : α → Eval β} {o : Outcome β}
    (there : frame < s.store.frames.size)
    (reached : o = (next >>= after) (startRound frame [(x, v)] s)) :
    EntersFramed next frame x v s o :=
  ⟨_, after, reached, rfl, rfl, frameYields_startRound there (lastBound?_concat [] x v)⟩

/-- In a loop over some values that starts from a session, the body is run from another one
for a certain value. -/
inductive Visited (I : Interp) (frame : Nat) (x : String) (body : List Value) :
    List Value → Session → Value → Session → Prop
  | here (v : Value) (rest : List Value) (s : Session) :
      Visited I frame x body (v :: rest) s v (startRound frame [(x, v)] s)
  | later {v w last : Value} {rest : List Value} {s s' t : Session} :
      I.evalBody frame body (startRound frame [(x, v)] s) = .ok last s' →
        Visited I frame x body rest s' w t → Visited I frame x body (v :: rest) s w t

/-- A round runs the body from the session in which the variable is defined and goes on
with the other values. -/
theorem itemLoop_cons (last v : Value) (rest : List Value) (s : Session) :
    itemLoop I frame x body last (v :: rest) s =
      (I.evalBody frame body >>= fun last => itemLoop I frame x body last rest)
        (startRound frame [(x, v)] s) := by
  rw [itemLoop]
  rfl

/-- A loop comes down to running the body in a session that it visits. -/
theorem Visited.reached {items : List Value} (visited : Visited I frame x body items s v t)
    (last : Value) :
    ∃ after, itemLoop I frame x body last items s = (I.evalBody frame body >>= after) t := by
  induction visited generalizing last with
  | here v rest s => exact ⟨_, itemLoop_cons last v rest s⟩
  | @later v _ last' rest s _ _ ran _ ih =>
      obtain ⟨after, reached⟩ := ih last'
      exact ⟨after, (itemLoop_cons last v rest s).trans ((bind_of_ok _ ran).trans reached)⟩

/-- A loop that comes to its end has run the body for each of the values. -/
theorem visited_of_itemLoop {items : List Value} {last result : Value}
    (ended : itemLoop I frame x body last items s = .ok result t) :
    ∀ w ∈ items, ∃ u, Visited I frame x body items s w u := by
  induction items generalizing s last with
  | nil => intro w member; cases member
  | cons v rest ih =>
      rw [itemLoop_cons] at ended
      obtain ⟨last', s', ran, ended⟩ := ok_of_bind ended
      intro w member
      cases member with
      | head => exact ⟨_, .here v rest s⟩
      | tail _ later =>
          obtain ⟨u, visited⟩ := ih ended w later
          exact ⟨u, .later ran visited⟩

/-- The induction is on the rounds before, each of which leaves the frame of the loop in
place and the workspace in order for the next one. -/
theorem Visited.frameYields [I.Restores] {items : List Value} {w : Value}
    (visited : Visited I frame x body items s w t) (inOrder : s.workspace.WellFormed)
    (there : frame < s.store.frames.size) : t.FrameYields x frame w := by
  induction visited with
  | here v rest s =>
      exact frameYields_startRound there (lastBound?_concat [] x v)
  | @later v _ _ _ s s' _ ran _ ih =>
      have kept := kept_of_ok (s := startRound frame [(x, v)] s) inOrder ran
      have started : (startRound frame [(x, v)] s).store.frames.size = s.store.frames.size :=
        Store.size_frames_defineAll ..
      exact ih kept.wellFormed (Nat.lt_of_lt_of_le (started ▸ there) kept.frames_le)

/-! ## `dotimes` and `dolist` -/

/-- What comes down to a loop over some values in a frame of its own.  Each of its rounds runs
the body from where the variable is defined as the value of that round, and a loop that
comes to its end has made a round for each value. -/
structure LoopsOver (I : Interp) (body : List Value) (x : String) (items : List Value)
    (o : Outcome Value) (frame : Nat) (s : Session) : Prop where
  loops : ∃ after, o = (itemLoop I frame x body .nil items >>= after) s
  round : ∀ v t, Visited I frame x body items s v t →
    (∃ after, o = (I.evalBody frame body >>= after) t) ∧ t.FrameYields x frame v
  each : ∀ result t, itemLoop I frame x body .nil items s = .ok result t →
    ∀ v ∈ items, ∃ u, Visited I frame x body items s v u

/-- The integers that `dotimes` counts through from a first one. -/
def counted : Nat → Int64 → List Value
  | 0, _ => []
  | rounds + 1, i => .int i :: counted rounds (i + 1)

/-- Counting is a loop over the integers. -/
theorem countLoop_eq_itemLoop (rounds : Nat) (i : Int64) (last : Value) :
    countLoop I frame x body rounds i last = itemLoop I frame x body last (counted rounds i) := by
  induction rounds generalizing i last with
  | zero => rfl
  | succ rounds ih =>
      rw [countLoop, counted, itemLoop]
      simp only [ih]

/-- The loop of `dotimes` and `dolist` has a frame of its own. -/
theorem loopsOver_childFrame [I.Restores] (inOrder : s.workspace.WellFormed) (first : Value)
    (items : List Value) (after : Value → Eval Value) :
    ∃ inner t, LoopsOver I body x items
      ((itemLoop I s.store.frames.size x body .nil items >>= after)
        { s with store := (s.store.childFrameWith frame [(x, first)]).2 }) inner t := by
  have there : s.store.frames.size <
      (s.store.childFrameWith frame [(x, first)]).2.frames.size := by
    simp [Store.childFrameWith, Store.childFrame]
  refine ⟨s.store.frames.size, { s with store := (s.store.childFrameWith frame [(x, first)]).2 },
    ⟨after, rfl⟩, fun v t visited => ?_, fun _ _ => visited_of_itemLoop⟩
  obtain ⟨next, reached⟩ := visited.reached .nil
  refine ⟨⟨fun last => next last >>= after, ?_⟩, visited.frameYields inOrder there⟩
  rw [bind_of_eq after reached, bind_assoc]

section Specification

variable {place form : Value} {result : List Value} {spec : Value}
  (listed : s.store.list? spec = some (place :: form :: result)) (short : result.length ≤ 1)
  (named : place.symbolName? = some x)
include listed short named

/-- The variable, the form and the result form of a loop are read first. -/
theorem specified_eq (name : String) (loop : List Value → String → Eval Value) :
    (do
      formArity name (spec :: body) 1 none
      let parts ← properList spec
      formArity name parts 2 (some 3)
      let var ← symbolName (parts.getD 0 .nil)
      loop parts var : Eval Value) s = loop (place :: form :: result) x s := by
  have someForm : formArity name (spec :: body) 1 none s = .ok () s :=
    formArity_ok (by simp) rfl _ s
  have parts : properList spec "listp" s = .ok (place :: form :: result) s := by
    unfold properList
    rw [listed]
  have threeParts : formArity name (place :: form :: result) 2 (some 3) s = .ok () s :=
    formArity_ok (by simp) (by simpa using short) _ s
  refine (bind_of_ok _ someForm).trans ((bind_of_ok _ parts).trans ?_)
  exact (bind_of_ok _ threeParts).trans (bind_of_ok _ (symbolName_of_symbolName? named s))

variable [I.Restores] (inOrder : s.workspace.WellFormed)
include inOrder

/-- `dotimes` runs its body for each number below the count. -/
theorem loopsOver_dotimes {n : Int64} (counts : I.eval form frame s = .ok (.int n) s₁) :
    ∃ inner t,
      LoopsOver I body x (counted n.toInt.toNat 0) (dotimes I (spec :: body) frame s) inner t := by
  have number : integer (.int n) s₁ = .ok n s₁ := rfl
  have framed : alloc (·.childFrameWith frame [(x, .int 0)]) s₁ = .ok s₁.store.frames.size
      { s₁ with store := (s₁.store.childFrameWith frame [(x, .int 0)]).2 } := rfl
  obtain ⟨after, called⟩ : ∃ after, dotimes I (spec :: body) frame s =
      (itemLoop I s₁.store.frames.size x body .nil (counted n.toInt.toNat 0) >>= after)
        { s₁ with store := (s₁.store.childFrameWith frame [(x, .int 0)]).2 } := by
    rw [← countLoop_eq_itemLoop]
    exact ⟨_, (specified_eq listed short named "dotimes" _).trans ((bind_of_ok _ counts).trans
      ((bind_of_ok _ number).trans (bind_of_ok _ framed)))⟩
  rw [called]
  exact loopsOver_childFrame (kept_of_ok inOrder counts).wellFormed (.int 0) _ _

/-- `dolist` runs its body for each element of the sequence. -/
theorem loopsOver_dolist {sequence : Value} {items : List Value}
    (evaluated : I.eval form frame s = .ok sequence s₁)
    (elements : sequenceElements sequence s₁ = .ok items s₂) :
    ∃ inner t, LoopsOver I body x items (dolist I (spec :: body) frame s) inner t := by
  have framed : alloc (·.childFrameWith frame [(x, .nil)]) s₂ = .ok s₂.store.frames.size
      { s₂ with store := (s₂.store.childFrameWith frame [(x, .nil)]).2 } := rfl
  obtain ⟨after, called⟩ : ∃ after, dolist I (spec :: body) frame s =
      (itemLoop I s₂.store.frames.size x body .nil items >>= after)
        { s₂ with store := (s₂.store.childFrameWith frame [(x, .nil)]).2 } :=
    ⟨_, (specified_eq listed short named "dolist" _).trans ((bind_of_ok _ evaluated).trans
      ((bind_of_ok _ elements).trans (bind_of_ok _ framed)))⟩
  have start := kept_of_ok inOrder evaluated
  rw [called]
  exact loopsOver_childFrame (kept_of_ok start.wellFormed elements).wellFormed .nil _ _

end Specification

end Forms

end EditorLisp
