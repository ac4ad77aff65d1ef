import EditorLisp.Proofs.Forms.Scope

/-!
# Clauses of `pcase`

A match only ever adds to the variables that are bound, so what a symbol pattern has bound
is there for the guards after it and for the body.  The body is run with the special ones
among the variables bound dynamically; a guard is evaluated in a frame with all of them,
which special variables are not looked up in.
-/

namespace EditorLisp.Forms

open Eval
open Eval.Restores (kept_of_ok)

variable {I : Interp} {frame : Nat} {x : String} {v value : Value} {bound : Bound}
  {s s₀ s₁ s₂ s₃ t : Session}

/-! ## What a match binds -/

/-- A match that starts with some variables bound keeps them and may bind more. -/
def Extends (bound : Bound) (m : Eval (Option Bound)) : Prop :=
  ∀ s bound' t, m s = .ok (some bound') t → bound <+: bound'

namespace Extends

theorem failed : Extends bound (pure none) := by
  intro s bound' t matched
  cases matched

theorem matched (more : Bound) : Extends bound (pure (some (bound ++ more))) := by
  intro s bound' t matched
  cases matched
  exact List.prefix_append bound more

theorem same : Extends bound (pure (some bound)) := by
  intro s bound' t matched
  cases matched
  exact List.prefix_rfl

theorem test (c : Prop) [Decidable c] : Extends bound (pure (if c then some bound else none)) := by
  split
  · exact same
  · exact failed

theorem after {α : Type} {m : Eval α} {f : α → Eval (Option Bound)}
    (next : ∀ a, Extends bound (f a)) : Extends bound (m >>= f) := by
  intro s bound' t matched
  obtain ⟨a, s', -, matched⟩ := ok_of_bind matched
  exact next a s' bound' t matched

/-- One match after the other, if the first one succeeds. -/
theorem both {m : Eval (Option Bound)} {f : Option Bound → Eval (Option Bound)}
    (first : Extends bound m) (then_ : ∀ b, Extends b (f (some b)))
    (else_ : Extends bound (f none)) : Extends bound (m >>= f) := by
  intro s bound' t matched
  obtain ⟨a, s', answer, matched⟩ := ok_of_bind matched
  cases a with
  | none => exact else_ s' bound' t matched
  | some b => exact (first s b s' answer).trans (then_ b s' bound' t matched)

end Extends

mutual

theorem extends_match (I : Interp) (frame : Nat) (pattern : Pattern) (value : Value)
    (bound : Bound) : Extends bound (pattern.match? I frame value bound) := by
  unfold Pattern.match?
  cases pattern with
  | wildcard => exact .same
  | bind name => exact .matched [(name, value)]
  | literal expected => exact .after fun _ => .test _
  | predicate function negated => exact .after fun _ => .after fun _ => .test _
  | guard form => exact .after fun _ => .after fun _ => .test _
  | all patterns => exact extends_matchAll I frame patterns value bound
  | any patterns => exact extends_matchAny I frame patterns value bound
  | pair carPattern cdrPattern =>
      dsimp only
      split
      · exact .after fun part => .both (extends_match I frame carPattern part bound)
          (fun b => .after fun part => extends_match I frame cdrPattern part b) .failed
      · exact .failed
  | vector patterns =>
      refine .after fun st => ?_
      split
      · split
        · exact extends_matchEach I frame patterns _ bound
        · exact .failed
      · exact .failed
termination_by structural pattern

theorem extends_matchAll (I : Interp) (frame : Nat) (patterns : List Pattern) (value : Value)
    (bound : Bound) : Extends bound (matchAll I frame patterns value bound) := by
  unfold matchAll
  cases patterns with
  | nil => exact .same
  | cons pattern rest =>
      exact .both (extends_match I frame pattern value bound)
        (fun b => extends_matchAll I frame rest value b) .failed
termination_by structural patterns

theorem extends_matchAny (I : Interp) (frame : Nat) (patterns : List Pattern) (value : Value)
    (bound : Bound) : Extends bound (matchAny I frame patterns value bound) := by
  unfold matchAny
  cases patterns with
  | nil => exact .failed
  | cons pattern rest =>
      exact .both (extends_match I frame pattern value bound) (fun b => .same)
        (extends_matchAny I frame rest value bound)
termination_by structural patterns

theorem extends_matchEach (I : Interp) (frame : Nat) (patterns : List Pattern)
    (values : List Value) (bound : Bound) :
    Extends bound (matchEach I frame patterns values bound) := by
  unfold matchEach
  cases patterns with
  | nil => exact .same
  | cons pattern rest =>
      cases values with
      | nil => exact .same
      | cons value values =>
          exact .both (extends_match I frame pattern value bound)
            (fun b => extends_matchEach I frame rest values b) .failed
termination_by structural patterns

end

/-! ## Guards -/

/-- A guard sees the variables bound before it, special ones excepted. -/
theorem match?_guard (frame : Nat) (form value : Value) (s : Session)
    (seen : lastBound? bound x = some v) :
    ∃ inner, EntersFramed (I.eval form inner) inner x v s
      ((Pattern.guard form).match? I frame value bound s) := by
  refine ⟨s.store.frames.size, { s with store := (s.store.childFrameWith frame bound).2 },
    fun result => pure (if result.isTrue then some bound else none), ?_, rfl, rfl,
    Session.frameYields_of_lookupIn? (Store.lookupIn?_childFrameWith frame seen)⟩
  unfold Pattern.match?
  rfl

/-- Patterns are matched from first to last. -/
theorem matchAll_append {patterns : List Pattern} {bound' : Bound} (rest : List Pattern)
    (matched : matchAll I frame patterns value bound s = .ok (some bound') s₁) :
    matchAll I frame (patterns ++ rest) value bound s = matchAll I frame rest value bound' s₁ := by
  induction patterns generalizing bound s with
  | nil =>
      rw [matchAll] at matched
      cases matched
      rfl
  | cons pattern patterns ih =>
      rw [matchAll] at matched
      obtain ⟨answer, s', first, matched⟩ := ok_of_bind matched
      show matchAll I frame (pattern :: (patterns ++ rest)) value bound s = _
      rw [matchAll, bind_of_ok _ first]
      cases answer with
      | none => cases matched
      | some more => exact ih matched

/-- In a pattern with a symbol, a guard after it is evaluated with the value bound. -/
theorem matchAll_bind_guard {between : List Pattern} {bound' : Bound} (form : Value)
    (rest : List Pattern)
    (matched : matchAll I frame (.bind x :: between) v bound s = .ok (some bound') s₁) :
    ∃ more, bound' = bound ++ (x, v) :: more ∧
      (x ∉ more.map Prod.fst → ∃ inner, EntersFramed (I.eval form inner) inner x v s₁
        (matchAll I frame (.bind x :: between ++ .guard form :: rest) v bound s)) := by
  have first : (Pattern.bind x).match? I frame v bound s = .ok (some (bound ++ [(x, v)])) s := by
    unfold Pattern.match?
    rfl
  have later := matched
  rw [matchAll, bind_of_ok _ first] at later
  obtain ⟨more, extended⟩ := extends_matchAll I frame between v _ _ _ _ later
  rw [List.append_assoc, List.singleton_append] at extended
  refine ⟨more, extended.symm, fun others => ?_⟩
  have seen : lastBound? bound' x = some v := by
    rw [← extended, ← List.singleton_append, ← List.append_assoc,
      lastBound?_append_of_notMem others]
    exact lastBound?_concat bound x v
  obtain ⟨inner, guarded⟩ := match?_guard (I := I) frame form v s₁ seen
  refine ⟨inner, ?_⟩
  rw [matchAll_append _ matched, matchAll]
  exact guarded.bind _

/-! ## Bodies -/

/-- Some clauses do not match a value and are passed over. -/
inductive Passed (I : Interp) (frame : Nat) (subject : Value) :
    List Value → Session → Session → Prop
  | none (s : Session) : Passed I frame subject [] s s
  | next {clause : Value} {rest : List Value} {pattern : Pattern} {s s₁ s₂ t : Session} :
      readPattern I.fuel (s.store.car clause) s = .ok pattern s₁ →
        pattern.match? I frame subject [] s₁ = .ok Option.none s₂ →
          Passed I frame subject rest s₂ t → Passed I frame subject (clause :: rest) s t

namespace Passed

variable {subject : Value} {clauses : List Value}

theorem pcaseClauses_append (passed : Passed I frame subject clauses s t) (later : List Value) :
    pcaseClauses I frame subject (clauses ++ later) s = pcaseClauses I frame subject later t := by
  induction passed with
  | none => rfl
  | @next clause rest _ _ _ _ _ read unmatched _ ih =>
      show pcaseClauses I frame subject (clause :: (rest ++ later)) _ = _
      rw [pcaseClauses]
      exact (bind_of_ok _ rfl).trans ((bind_of_ok _ read).trans ((bind_of_ok _ unmatched).trans ih))

theorem kept [I.Restores] (passed : Passed I frame subject clauses s t)
    (inOrder : s.workspace.WellFormed) : s.Kept t := by
  induction passed with
  | none => exact .refl inOrder
  | next read unmatched _ ih =>
      have opened := kept_of_ok inOrder read
      have tried := kept_of_ok opened.wellFormed unmatched
      exact (opened.trans tried).trans (ih tried.wellFormed)

end Passed

/-- The body of the clause that matches sees the variables that its pattern has bound. -/
theorem runsWith_pcase [I.Restores] {form subject clause : Value} {earlier later : List Value}
    {pattern : Pattern} (inOrder : s.workspace.WellFormed)
    (evaluated : I.eval form frame s = .ok subject s₀)
    (passed : Passed I frame subject earlier s₀ s₁)
    (read : readPattern I.fuel (s₁.store.car clause) s₁ = .ok pattern s₂)
    (matched : pattern.match? I frame subject [] s₂ = .ok (some bound) s₃)
    (seen : lastBound? bound x = some v) :
    I.RunsWith ((s₃.store.list? (s₃.store.cdr clause)).getD []) x v s₃
      (pcase I (form :: (earlier ++ clause :: later)) frame s) := by
  have arity : formArity "pcase" (form :: (earlier ++ clause :: later)) 1 none s = .ok () s :=
    formArity_ok (by simp) rfl _ s
  have called : pcase I (form :: (earlier ++ clause :: later)) frame s =
      withDynamic (bound.partition fun b => s₃.specials.contains b.1).1
        (I.evalBody s₃.store.frames.size ((s₃.store.list? (s₃.store.cdr clause)).getD []))
        { s₃ with
          store := (s₃.store.childFrameWith frame
            (bound.partition fun b => s₃.specials.contains b.1).2).2 } := by
    refine (bind_of_ok _ arity).trans ((bind_of_ok _ evaluated).trans ?_)
    refine (passed.pcaseClauses_append (clause :: later)).trans ?_
    rw [pcaseClauses]
    exact (bind_of_ok _ rfl).trans ((bind_of_ok _ read).trans ((bind_of_ok _ matched).trans rfl))
  have start := kept_of_ok inOrder evaluated
  have reached := passed.kept start.wellFormed
  have opened := kept_of_ok reached.wellFormed read
  have now := kept_of_ok opened.wellFormed matched
  rw [called]
  exact runsWith_withDynamic now.wellFormed frame ((lastBound?_partition _ _ _).trans seen)

end EditorLisp.Forms
