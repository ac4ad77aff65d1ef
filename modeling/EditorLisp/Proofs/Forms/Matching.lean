import EditorLisp.Proofs.Forms.Clause
import EditorLisp.Proofs.Forms.Pattern
import EditorLisp.Proofs.Levels

/-!
# Matching finds what a pattern means

On a value within the depth of structural equality, matching succeeds exactly if the pattern
relates to the value, and then it adds exactly what the pattern binds; what was collected on the
way in a part that fails in the end is dropped with it.  A `pcase` therefore evaluates its
subject once, passes over the clauses whose patterns do not relate to the value, and goes on
with the body of the first one whose pattern does.  The clauses after that one are not looked
at: they need not even be clauses.
-/

namespace EditorLisp

open Forms

/-! ## Enough levels for a step -/

namespace Interp

/-- How a step ends that is made with an interpreter of enough levels. -/
def Leads {α : Type} (m : Interp → Eval α) (s : Session) (o : Outcome α) : Prop :=
  ∃ level, m (ofLevel level) s = o ∧ o ≠ .unfinished

/-- A step that goes further with more levels, and ends alike where it ended before. -/
def Grows {α : Type} (m : Interp → Eval α) : Prop :=
  ∀ (I J : Interp) [I.Agrees J], Eval.Agrees (m I) (m J)

variable {α : Type} {m m' : Interp → Eval α} {s s' : Session} {o o' : Outcome α}

theorem Leads.eq (leads : Leads m s o) (grows : Grows m) :
    ∃ least, ∀ level ≥ least, m (ofLevel level) s = o := by
  obtain ⟨least, rfl, finished⟩ := leads
  refine ⟨least, fun level enough => ?_⟩
  have := agrees_ofLevel enough
  have := grows (ofLevel least) (ofLevel level)
  exact Eval.Agrees.eq_of_finished finished

/-- Steps that are the same with enough levels end alike. -/
theorem leads_congr (grows : Grows m) (grows' : Grows m') {least : Nat}
    (same : ∀ level ≥ least, m (ofLevel level) s = m' (ofLevel level) s') (o : Outcome α) :
    Leads m s o ↔ Leads m' s' o := by
  constructor
  · intro leads
    obtain ⟨enough, ends⟩ := leads.eq grows
    have both := same _ (le_max_left least enough)
    rw [ends _ (le_max_right least enough)] at both
    exact ⟨_, both.symm, leads.choose_spec.2⟩
  · intro leads
    obtain ⟨enough, ends⟩ := leads.eq grows'
    have both := same _ (le_max_left least enough)
    rw [ends _ (le_max_right least enough)] at both
    exact ⟨_, both, leads.choose_spec.2⟩

end Interp

namespace Forms

open Eval

variable {I : Interp} {frame : Nat} {s t : Session} {p : Pattern} {v : Value} {b : Bound}

/-! ## One pattern -/

/-- A step that adds what is bound to the variables from before, or fails. -/
inductive Decides (s : Session) (binds : Bound → Prop) (relates : Prop)
    (m : Bound → Eval (Option Bound)) : Prop where
  | binds {b : Bound} : binds b → (∀ bound, m bound s = .ok (some (bound ++ b)) s) →
      Decides s binds relates m
  | fails : ¬relates → (∀ bound, m bound s = .ok none s) → Decides s binds relates m

namespace Decides

variable {binds binds' : Bound → Prop} {relates relates' : Prop}
  {m m' both : Bound → Eval (Option Bound)}

theorem imp (decides : Decides s binds relates m) (forth : ∀ b, binds b → binds' b)
    (back : relates' → relates) : Decides s binds' relates' m := by
  cases decides with
  | binds holds found => exact .binds (forth _ holds) found
  | fails unrelated found => exact .fails (mt back unrelated) found

theorem congr (decides : Decides s binds relates m) (same : ∀ bound, m' bound s = m bound s) :
    Decides s binds relates m' := by
  cases decides with
  | binds holds found => exact .binds holds fun bound => (same bound).trans (found bound)
  | fails unrelated found => exact .fails unrelated fun bound => (same bound).trans (found bound)

/-- Of two steps the second is made if the first one binds, and adds to what is bound by then. -/
theorem and (first : Decides s binds relates m) (second : Decides s binds' relates' m')
    (fails : ∀ bound, m bound s = .ok none s → both bound s = .ok none s)
    (goesOn : ∀ bound bound', m bound s = .ok (some bound') s → both bound s = m' bound' s) :
    Decides s (fun b => ∃ c d, binds c ∧ binds' d ∧ b = c ++ d) (relates ∧ relates') both := by
  cases first with
  | fails unrelated found =>
      exact .fails (fun all => unrelated all.1) fun bound => fails bound (found bound)
  | @binds c holds found =>
      cases second with
      | fails unrelated found' =>
          refine .fails (fun all => unrelated all.2) fun bound => ?_
          exact (goesOn _ _ (found bound)).trans (found' _)
      | @binds d holds' found' =>
          refine .binds ⟨c, d, holds, holds', rfl⟩ fun bound => ?_
          rw [← List.append_assoc]
          exact (goesOn _ _ (found bound)).trans (found' _)

end Decides

/-- Matching finds what a pattern binds on a value. -/
abbrev Finds (I : Interp) (frame : Nat) (s : Session) (p : Pattern) (v : Value) : Prop :=
  Decides s (Binds s.store p v) (Relates s.store p v) (p.match? I frame v)

section Lists

variable {ps : List Pattern} {vs : List Value}

/-- All patterns relate to a value, with what each of them binds. -/
theorem matchAll_decides (I : Interp) (frame : Nat) (each : ∀ p ∈ ps, Finds I frame s p v) :
    Decides s
      (fun b => ∃ bs : List Bound, ps.length = bs.length ∧
        (∀ (k : Nat) (p : Pattern) (b : Bound),
          ps[k]? = some p → bs[k]? = some b → Binds s.store p v b) ∧ b = bs.flatten)
      (∀ p ∈ ps, Relates s.store p v) (fun bound => matchAll I frame ps v bound) := by
  induction ps with
  | nil =>
      refine .binds (b := []) ⟨[], rfl, by simp, rfl⟩ fun bound => ?_
      rw [matchAll, List.append_nil]
      rfl
  | cons p ps ih =>
      rw [List.forall_mem_cons] at each
      refine (each.1.and (ih each.2) (fun bound none => ?_) fun bound bound' found => ?_).imp ?_
        List.forall_mem_cons.mp
      · rw [matchAll, bind_of_ok _ none]
        rfl
      · rw [matchAll, bind_of_ok _ found]
      · rintro _ ⟨b, _, bindsFirst, ⟨bs, size, all, rfl⟩, rfl⟩
        refine ⟨b :: bs, congrArg Nat.succ size, ?_, rfl⟩
        rintro (_ | k) q c there there'
        · cases there
          cases there'
          exact bindsFirst
        · exact all k q c there there'

/-- Patterns relate to values one by one, with what each of them binds. -/
theorem matchEach_decides (I : Interp) (frame : Nat) (size : ps.length = vs.length)
    (each : ∀ p ∈ ps, ∀ v ∈ vs, Finds I frame s p v) :
    Decides s
      (fun b => ∃ bs : List Bound, ps.length = bs.length ∧
        (∀ (k : Nat) (p : Pattern) (v : Value) (b : Bound),
          ps[k]? = some p → vs[k]? = some v → bs[k]? = some b → Binds s.store p v b) ∧
            b = bs.flatten)
      (∀ (k : Nat) (p : Pattern) (v : Value),
        ps[k]? = some p → vs[k]? = some v → Relates s.store p v)
      (fun bound => matchEach I frame ps vs bound) := by
  induction ps generalizing vs with
  | nil =>
      refine .binds (b := []) ⟨[], rfl, by simp, rfl⟩ fun bound => ?_
      rw [matchEach, List.append_nil]
      · rfl
      · intro _ _ _ _ same
        cases same
  | cons p ps ih =>
      obtain ⟨v, vs, rfl⟩ := List.exists_cons_of_length_eq_add_one size.symm
      have rest := ih (Nat.succ.inj size) fun q member w member' =>
        each q (List.mem_cons_of_mem _ member) w (List.mem_cons_of_mem _ member')
      have first := each p List.mem_cons_self v List.mem_cons_self
      refine (first.and rest (fun bound none => ?_) fun bound bound' found => ?_).imp ?_
        fun all => ⟨all 0 p v rfl rfl, fun k => all (k + 1)⟩
      · rw [matchEach, bind_of_ok _ none]
        rfl
      · rw [matchEach, bind_of_ok _ found]
      · rintro _ ⟨b, _, bindsFirst, ⟨bs, size, all, rfl⟩, rfl⟩
        refine ⟨b :: bs, congrArg Nat.succ size, ?_, rfl⟩
        rintro (_ | k) q w c there item there'
        · cases there
          cases item
          cases there'
          exact bindsFirst
        · exact all k q w c there item there'

/-- The first alternative that relates to a value binds. -/
theorem matchAny_decides (I : Interp) (frame : Nat) (each : ∀ p ∈ ps, Finds I frame s p v) :
    Decides s
      (fun b => ∃ earlier p later, ps = earlier ++ p :: later ∧
        (∀ q ∈ earlier, ¬Relates s.store q v) ∧ Binds s.store p v b)
      (∃ p ∈ ps, Relates s.store p v) (fun bound => matchAny I frame ps v bound) := by
  induction ps with
  | nil =>
      refine .fails (by simp) fun bound => ?_
      rw [matchAny]
      rfl
  | cons p ps ih =>
      rw [List.forall_mem_cons] at each
      cases each.1 with
      | binds binds found =>
          refine .binds ⟨[], p, ps, rfl, by simp, binds⟩ fun bound => ?_
          rw [matchAny, bind_of_ok _ (found bound)]
          rfl
      | fails unrelated found =>
          cases ih each.2 with
          | fails unrelated' found' =>
              refine .fails ?_ fun bound => ?_
              · rw [List.exists_mem_cons_iff]
                exact not_or_intro unrelated unrelated'
              · rw [matchAny, bind_of_ok _ (found bound)]
                exact found' bound
          | binds rest found' =>
              obtain ⟨earlier, q, later, rfl, none, binds⟩ := rest
              refine .binds ⟨p :: earlier, q, later, rfl, ?_, binds⟩ fun bound => ?_
              · exact List.forall_mem_cons.mpr ⟨unrelated, none⟩
              · rw [matchAny, bind_of_ok _ (found bound)]
                exact found' bound

theorem finds_all (each : ∀ p ∈ ps, Finds I frame s p v) : Finds I frame s (.all ps) v := by
  simp only [Finds, Pattern.match?]
  refine (matchAll_decides I frame each).imp ?_ fun relates => ?_
  · rintro _ ⟨bs, size, all, rfl⟩
    exact .all size all
  · cases relates with
    | all all => exact all

theorem finds_any (each : ∀ p ∈ ps, Finds I frame s p v) : Finds I frame s (.any ps) v := by
  simp only [Finds, Pattern.match?]
  refine (matchAny_decides I frame each).imp ?_ fun relates => ?_
  · rintro _ ⟨earlier, p, later, rfl, none, binds⟩
    exact .any none binds
  · cases relates with
    | any member relates => exact ⟨_, member, relates⟩

/-- A vector of patterns is matched against a vector of as many items one by one. -/
theorem match?_vector (I : Interp) (frame : Nat) (ps : List Pattern) (ref : Nat) (bound : Bound) :
    (Pattern.vector ps).match? I frame (.vector ref) bound s =
      (if (s.store.itemsAt ref).length = ps.length then
        matchEach I frame ps (s.store.itemsAt ref) bound else pure none) s := by
  rw [Pattern.match?]
  rfl

theorem finds_vector {ref : Nat}
    (each : ∀ p ∈ ps, ∀ item ∈ s.store.itemsAt ref, Finds I frame s p item) :
    Finds I frame s (.vector ps) (.vector ref) := by
  have matched (bound : Bound) := match?_vector (s := s) I frame ps ref bound
  by_cases size : ps.length = (s.store.itemsAt ref).length
  · simp only [size.symm, if_true] at matched
    refine ((matchEach_decides I frame size each).congr matched).imp ?_ fun relates => ?_
    · rintro _ ⟨bs, size', all, rfl⟩
      exact .vector size size' all
    · cases relates with
      | vector _ all => exact all
  · simp only [Ne.symm size, if_false] at matched
    refine .fails (fun relates => ?_) matched
    cases relates with
    | vector size' _ => exact size size'

end Lists

theorem finds_literal (I : Interp) (frame : Nat) (expected : Value)
    (within : s.store.WithinDepth v Store.equalityDepth) :
    Finds I frame s (.literal expected) v := by
  have equal := Store.equal_iff_similar (a := expected) within
  by_cases similar : s.store.Similar expected v
  · refine .binds (.literal similar) fun bound => ?_
    rw [Pattern.match?, bind_store _ s, equal.mpr similar, List.append_nil]
    rfl
  · refine .fails (fun relates => ?_) fun bound => ?_
    · cases relates with
      | literal similar' => exact similar similar'
    · rw [Pattern.match?, bind_store _ s, if_neg (mt equal.mp similar)]
      rfl

theorem finds_pair {q : Pattern} {ref : Nat} (car : Finds I frame s p (s.store.car (.cons ref)))
    (cdr : Finds I frame s q (s.store.cdr (.cons ref))) :
    Finds I frame s (.pair p q) (.cons ref) := by
  simp only [Finds, Pattern.match?]
  refine (car.and cdr (fun bound none => ?_) fun bound bound' found => ?_).imp ?_ fun relates => ?_
  · exact (bind_of_ok _ rfl).trans (bind_of_ok _ none)
  · exact (bind_of_ok _ rfl).trans ((bind_of_ok _ found).trans (bind_of_ok _ rfl))
  · rintro _ ⟨b, c, first, second, rfl⟩
    exact .pair first second
  · cases relates with
    | pair first second => exact ⟨first, second⟩

/-- On a value within the depth of structural equality a match succeeds exactly if the pattern
relates to the value, and binds what the pattern binds. -/
theorem finds_of_plain (I : Interp) (frame : Nat) (plain : Plain p)
    (within : s.store.WithinDepth v Store.equalityDepth) : Finds I frame s p v := by
  induction plain generalizing v with
  | wildcard =>
      refine .binds (.wildcard v) fun bound => ?_
      rw [Pattern.match?, List.append_nil]
      rfl
  | bind x =>
      refine .binds (.bind x v) fun bound => ?_
      rw [Pattern.match?]
      rfl
  | literal expected => exact finds_literal I frame expected within
  | all _ ih => exact finds_all fun p member => ih p member within
  | any _ ih => exact finds_any fun p member => ih p member within
  | pair _ _ ihCar ihCdr =>
      cases v with
      | cons ref =>
          obtain ⟨n, deep, car, cdr⟩ := within.pair
          have shallower : n ≤ Store.equalityDepth := deep ▸ Nat.le_succ n
          exact finds_pair (ihCar (car.mono shallower)) (ihCdr (cdr.mono shallower))
      | _ =>
          refine .fails (by rintro ⟨⟩) fun bound => ?_
          rw [Pattern.match?]
          rfl
  | vector _ ih =>
      cases v with
      | vector ref =>
          refine finds_vector fun p member item there => ?_
          obtain ⟨n, deep, within⟩ := within.item there
          exact ih p member (within.mono (deep ▸ Nat.le_succ n))
      | _ =>
          refine .fails (by rintro ⟨⟩) fun bound => ?_
          rw [Pattern.match?]
          rfl

/-- A pattern that relates to a value binds something on it. -/
theorem Relates.exists_binds {st : Store} (relates : Relates st p v) (plain : Plain p)
    (within : st.WithinDepth v Store.equalityDepth) : ∃ b, Binds st p v b := by
  cases finds_of_plain (s := { store := st }) (.ofLevel 0) 0 plain within with
  | binds binds _ => exact ⟨_, binds⟩
  | fails unrelated _ => exact absurd relates unrelated

/-! ## One clause -/

/-- A clause starts with a form that denotes a pattern; the other forms are its body. -/
def IsClause (st : Store) (clause : Value) (p : Pattern) (body : List Value) : Prop :=
  ∃ form, st.IsList clause form body ∧ Denotes st form p

/-- Run the body of a clause with what its pattern has bound, the special variables among that
dynamically. -/
def runClause (I : Interp) (frame : Nat) (bound : Bound) (body : List Value) : Eval Value := do
  let specials ← get (·.specials)
  let inner ← boundFrame frame (bound.partition fun b => specials.contains b.1).2
  withDynamic (bound.partition fun b => specials.contains b.1).1 (I.evalBody inner body)

theorem grows_runClause (frame : Nat) (bound : Bound) (body : List Value) :
    Interp.Grows fun I => runClause I frame bound body := by
  intro I J _
  unfold runClause
  infer_instance

/-- A clause whose pattern does not relate to the subject is passed over. -/
theorem passed_of_not_relates (frame : Nat) {clauses : List Value}
    (each : ∀ clause ∈ clauses, ∃ p body, IsClause s.store clause p body ∧
      ¬Relates s.store p v)
    (within : s.store.WithinDepth v Store.equalityDepth) :
    ∃ least, ∀ level ≥ least, Passed (.ofLevel level) frame v clauses s s := by
  induction clauses with
  | nil => exact ⟨0, fun level _ => .none s⟩
  | cons clause clauses ih =>
      rw [List.forall_mem_cons] at each
      obtain ⟨⟨p, body, ⟨form, isList, denotes⟩, unrelated⟩, others⟩ := each
      obtain ⟨least, rest⟩ := ih others
      obtain ⟨enough, read⟩ := denotes.readsAs
      refine ⟨max least enough, fun level deep => ?_⟩
      have opened := read level (le_of_max_le_right deep) s rfl
      rw [← isList.car_eq] at opened
      cases finds_of_plain (.ofLevel level) frame denotes.plain within with
      | binds binds _ => exact absurd binds.relates unrelated
      | fails _ found => exact .next opened (found []) (rest level (le_of_max_le_left deep))

/-- The body of a clause whose pattern relates to the subject is run. -/
theorem pcaseClauses_of_binds (frame : Nat) {clause : Value} {body : List Value}
    (isClause : IsClause s.store clause p body)
    (within : s.store.WithinDepth v Store.equalityDepth) (binds : Binds s.store p v b)
    (later : List Value) :
    ∃ least, ∀ level ≥ least, pcaseClauses (.ofLevel level) frame v (clause :: later) s =
      runClause (.ofLevel level) frame b body s := by
  obtain ⟨form, isList, denotes⟩ := isClause
  obtain ⟨least, read⟩ := denotes.readsAs
  refine ⟨least, fun level enough => ?_⟩
  have opened := read level enough s rfl
  rw [← isList.car_eq] at opened
  cases finds_of_plain (.ofLevel level) frame denotes.plain within with
  | fails unrelated _ => exact absurd binds.relates unrelated
  | @binds b' binds' found =>
      have parts : Eval.list? (s.store.cdr clause) s = .ok (some body) s :=
        congrArg (Outcome.ok · s) isList.cdr_eq
      rw [pcaseClauses, binds.unique binds']
      refine (bind_of_ok _ rfl).trans ((bind_of_ok _ opened).trans ?_)
      refine (bind_of_ok _ (found [])).trans ((bind_of_ok _ rfl).trans ?_)
      exact bind_of_ok _ parts

/-! ## The special form -/

/-- A `pcase` evaluates its subject and then tries its clauses. -/
theorem pcase_of_ok {subject : Value} {clauses : List Value}
    (evaluated : I.eval subject frame s = .ok v t) :
    pcase I (subject :: clauses) frame s = pcaseClauses I frame v clauses t := by
  have arity : formArity "pcase" (subject :: clauses) 1 none s = .ok () s :=
    formArity_ok (by simp) rfl _ s
  exact (bind_of_ok _ arity).trans (bind_of_ok _ evaluated)

/-- What keeps the subject from returning keeps the whole form from it. -/
theorem pcase_of_not_ok {subject : Value} {clauses : List Value} {o : Outcome Value}
    (evaluated : I.eval subject frame s = o) (left : ∀ v t, o ≠ .ok v t) :
    pcase I (subject :: clauses) frame s = o := by
  have arity : formArity "pcase" (subject :: clauses) 1 none s = .ok () s :=
    formArity_ok (by simp) rfl _ s
  refine (bind_of_ok _ arity).trans ?_
  show Eval.bind (I.eval subject frame) _ s = o
  unfold Eval.bind
  rw [evaluated]
  cases o with
  | ok v t => exact absurd rfl (left v t)
  | _ => rfl

theorem grows_pcase (forms : List Value) (frame : Nat) :
    Interp.Grows fun I => pcase I forms frame := fun _ _ => inferInstance

/-- Let the clauses of a `pcase` start with patterns made of wildcards, variables, literals,
`quote`, `and`, `or` and backquoted templates.  Its subject is evaluated once, and the form ends
like the subject unless that returns; without an end of the subject it has none.  Where it returns
a value within the depth of structural equality, the value of the form is `nil` if no pattern
relates to that value.  Otherwise the body of the first clause whose pattern does is run, in the
session in which the subject returned, with what that pattern binds and nothing else, and the form
ends as the body does; what stands behind that clause does not matter. -/
theorem leads_pcase (subject : Value) (frame : Nat) (s : Session) :
    (∀ clauses o, Interp.Ends subject frame s o → (∀ v t, o ≠ .ok v t) →
      Interp.Leads (fun I => pcase I (subject :: clauses) frame) s o) ∧
    (∀ clauses o, Interp.Leads (fun I => pcase I (subject :: clauses) frame) s o →
      ∃ o', Interp.Ends subject frame s o') ∧
    ∀ v t, Interp.Ends subject frame s (.ok v t) →
      t.store.WithinDepth v Store.equalityDepth →
      (∀ clauses, (∀ clause ∈ clauses, ∃ p body, IsClause t.store clause p body ∧
          ¬Relates t.store p v) →
        Interp.Leads (fun I => pcase I (subject :: clauses) frame) s (.ok .nil t)) ∧
      ∀ earlier clause later p body,
        (∀ c ∈ earlier, ∃ q rest, IsClause t.store c q rest ∧ ¬Relates t.store q v) →
        IsClause t.store clause p body → Relates t.store p v →
        ∃ b, Binds t.store p v b ∧ (∀ b', Binds t.store p v b' → b' = b) ∧
          ∀ o, Interp.Leads (fun I => pcase I (subject :: (earlier ++ clause :: later)) frame) s o ↔
            Interp.Leads (fun I => runClause I frame b body) t o := by
  refine ⟨?_, ?_, fun v t evaluated within => ⟨?_, ?_⟩⟩
  · rintro clauses o ⟨level, ended, finished⟩ left
    exact ⟨level, pcase_of_not_ok ended left, finished⟩
  · rintro clauses o ⟨level, ended, finished⟩
    have ends : (Interp.ofLevel level).eval subject frame s ≠ .unfinished := by
      intro never
      exact finished (ended.symm.trans (pcase_of_not_ok never fun _ _ same => nomatch same))
    exact ⟨_, .of_eq rfl ends⟩
  · intro clauses unrelated
    obtain ⟨enough, subjectEnds⟩ := evaluated.eval_eq
    obtain ⟨least, passed⟩ := passed_of_not_relates frame unrelated within
    refine ⟨max enough least, ?_, nofun⟩
    have matched := (passed _ (le_max_right enough least)).pcaseClauses_append []
    rw [List.append_nil] at matched
    exact (pcase_of_ok (subjectEnds _ (le_max_left enough least))).trans matched
  · intro earlier clause later p body unrelated isClause relates
    have plain : Plain p := isClause.choose_spec.2.plain
    obtain ⟨b, binds⟩ := relates.exists_binds plain within
    refine ⟨b, binds, fun b' binds' => binds'.unique binds, fun o => ?_⟩
    obtain ⟨enough, subjectEnds⟩ := evaluated.eval_eq
    obtain ⟨least, passed⟩ := passed_of_not_relates frame unrelated within
    obtain ⟨least', taken⟩ := pcaseClauses_of_binds frame isClause within binds later
    have same : ∀ level ≥ max enough (max least least'),
        pcase (.ofLevel level) (subject :: (earlier ++ clause :: later)) frame s =
          runClause (.ofLevel level) frame b body t := by
      intro level deep
      obtain ⟨deep₁, deep₂, deep₃⟩ : enough ≤ level ∧ least ≤ level ∧ least' ≤ level := by omega
      rw [pcase_of_ok (subjectEnds level deep₁),
        (passed level deep₂).pcaseClauses_append (clause :: later), taken level deep₃]
    exact Interp.leads_congr (grows_pcase _ frame) (grows_runClause frame b body) same o

/-- The pairs of `((or (and x 1) (and y 2)) y)`, with that clause as the last one. -/
def alternatives : Store where
  pairs := #[⟨.int 1, .nil⟩, ⟨.symbol "x", .cons 0⟩, ⟨.symbol "and", .cons 1⟩,
    ⟨.int 2, .nil⟩, ⟨.symbol "y", .cons 3⟩, ⟨.symbol "and", .cons 4⟩,
    ⟨.cons 5, .nil⟩, ⟨.cons 2, .cons 6⟩, ⟨.symbol "or", .cons 7⟩,
    ⟨.symbol "y", .nil⟩, ⟨.cons 8, .cons 9⟩]

/-- The pattern of that clause. -/
def alternativesPattern : Pattern :=
  .any [.all [.bind "x", .literal (.int 1)], .all [.bind "y", .literal (.int 2)]]

theorem isClause_alternatives :
    IsClause alternatives (.cons 10) alternativesPattern [.symbol "y"] := by
  have firstForm : alternatives.IsList (.cons 2) (.symbol "and") [.symbol "x", .int 1] :=
    ⟨⟨2, rfl⟩, rfl, rfl⟩
  have secondForm : alternatives.IsList (.cons 5) (.symbol "and") [.symbol "y", .int 2] :=
    ⟨⟨5, rfl⟩, rfl, rfl⟩
  have whole : alternatives.IsList (.cons 8) (.symbol "or") [.cons 2, .cons 5] :=
    ⟨⟨8, rfl⟩, rfl, rfl⟩
  refine ⟨.cons 8, ⟨⟨10, rfl⟩, rfl, rfl⟩, .or whole rfl ?_⟩
  rintro (_ | _ | k) form p there there' <;> cases there <;> cases there'
  · refine .and firstForm rfl ?_
    rintro (_ | _ | k) form p there there' <;> cases there <;> cases there'
    · exact .symbol (by decide)
    · exact .literal trivial
  · refine .and secondForm rfl ?_
    rintro (_ | _ | k) form p there there' <;> cases there <;> cases there'
    · exact .symbol (by decide)
    · exact .literal trivial

theorem binds_alternatives : Binds alternatives alternativesPattern (.int 2) [("y", .int 2)] := by
  have different : ¬alternatives.Similar (.int 1) (.int 2) := by
    intro similar
    cases similar with
    | atom first second => cases first.trans second.symm
  apply @Binds.any alternatives [.all [.bind "x", .literal (.int 1)]] []
  · intro q member relates
    cases List.mem_singleton.mp member
    cases relates with
    | all all =>
        cases all (.literal (.int 1)) (by simp) with
        | literal similar => exact different similar
  · apply @Binds.all _ [.bind "y", .literal (.int 2)] (.int 2) [[("y", .int 2)], []] rfl
    rintro (_ | _ | k) p b there there' <;> cases there <;> cases there'
    · exact .bind "y" (.int 2)
    · exact .literal (.same _)

/-- The first alternative fails after it has bound a variable, and only what the second one
binds is there when the body runs.  What stands behind the clause is no clause. -/
theorem leads_pcase_alternatives :
    ∃ t, Interp.Leads (fun I => pcase I [.int 2, .cons 10, .int 7] 0) { store := alternatives }
      (.ok (.int 2) t) := by
  have evaluated : Interp.Ends (.int 2) 0 { store := alternatives }
      (.ok (.int 2) { store := alternatives }) := ⟨1, rfl, nofun⟩
  have within : alternatives.WithinDepth (.int 2) Store.equalityDepth := by
    refine ⟨.atom (.other (.int 2)), .atom rfl, fun k u part => ?_⟩
    cases part
    exact Nat.zero_le _
  have taken := ((leads_pcase (.int 2) 0 { store := alternatives }).2.2 _ _ evaluated within).2
  obtain ⟨b, -, unique, same⟩ := taken [] (.cons 10) [.int 7] alternativesPattern [.symbol "y"]
    nofun isClause_alternatives binds_alternatives.relates
  cases unique _ binds_alternatives
  exact ⟨_, (same _).mpr ⟨1, rfl, nofun⟩⟩

end Forms

end EditorLisp
