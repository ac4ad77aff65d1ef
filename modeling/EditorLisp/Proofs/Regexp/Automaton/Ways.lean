import EditorLisp.Proofs.Regexp.Laws
import EditorLisp.Regexp.Automaton
import Mathlib.Logic.Relation
import Mathlib.Tactic.Common

/-!
# Ways through a program

A program says which ways there are from where a match starts: over instructions that take no
character, and over those that take the next one.  Which of several ways is preferred plays
no part in this, so a way is a relation, and a program matches between two positions if a
way leads from its start to an end of it.  What a search finds is measured against that.
-/

namespace EditorLisp.Regexp

namespace Subject

variable {text : Subject} {chars : List Char} {pos : Nat}

/-- There is a character after each position but the last. -/
theorem after?_eq_none_iff : text.after? pos = none ↔ text.size ≤ pos :=
  Array.getElem?_eq_none_iff

theorem lt_size_of_after? {c : Char} (there : text.after? pos = some c) : pos < text.size :=
  (Array.getElem?_eq_some_iff.mp there).1

@[simp]
theorem size_ofList (chars : List Char) : (ofList chars).size = chars.length := rfl

theorem after?_ofList (chars : List Char) (pos : Nat) : (ofList chars).after? pos = chars[pos]? :=
  List.getElem?_toArray ..

theorem before?_ofList (chars : List Char) (pos : Nat) :
    (ofList chars).before? pos = Regexp.before? chars pos := by
  cases pos with
  | zero => rfl
  | succ n => exact after?_ofList chars n

end Subject

/-- Where to go on from an instruction without taking a character. -/
def Instruction.onward (place : Place) : Instruction → List Nat
  | .one _ _ | .done => []
  | .look l next => if l.holds place.before place.after then [next] else []
  | .save _ next => [next]
  | .branch first second => [first, second]

namespace Program

variable {p : Program} {text : Subject} {place : Place} {a pc pc' pos : Nat}

/-- An instruction that takes no character, and one where a way goes on after it. -/
inductive Skips (p : Program) (place : Place) : Nat → Nat → Prop
  | look {l : Look} {pc next : Nat} (here : p.code[pc]? = some (.look l next))
      (holds : l.holds place.before place.after = true) : Skips p place pc next
  | save {slot pc next : Nat} (here : p.code[pc]? = some (.save slot next)) : Skips p place pc next
  | first {pc first second : Nat} (here : p.code[pc]? = some (.branch first second)) :
      Skips p place pc first
  | second {pc first second : Nat} (here : p.code[pc]? = some (.branch first second)) :
      Skips p place pc second

theorem Skips.mem_onward {i : Instruction} (step : p.Skips place pc pc')
    (here : p.code[pc]? = some i) : pc' ∈ i.onward place := by
  cases step with
  | look there holds =>
      cases here.symm.trans there
      rw [Instruction.onward, if_pos holds]
      exact List.mem_singleton_self _
  | save there =>
      cases here.symm.trans there
      exact List.mem_singleton_self _
  | first there =>
      cases here.symm.trans there
      exact List.mem_cons_self
  | second there =>
      cases here.symm.trans there
      exact List.mem_cons_of_mem _ (List.mem_singleton_self _)

/-- An instruction that takes the character after a position, and the one after it. -/
structure Takes (p : Program) (text : Subject) (pos pc next : Nat) (set : CharSet) (c : Char) :
    Prop where
  here : p.code[pc]? = some (.one set next)
  after : text.after? pos = some c
  accepts : set.accepts p.fold c = true

/-- The instructions and positions that a way from a position leads to. -/
inductive Reaches (p : Program) (text : Subject) (a : Nat) : Nat → Nat → Prop
  | start : Reaches p text a p.start a
  | skip {pc pc' pos : Nat} (way : Reaches p text a pc pos)
      (step : p.Skips (text.place pos) pc pc') : Reaches p text a pc' pos
  | take {pc next pos : Nat} {set : CharSet} {c : Char} (way : Reaches p text a pc pos)
      (step : p.Takes text pos pc next set c) : Reaches p text a next (pos + 1)

/-- A program matches between two positions. -/
def Matches (p : Program) (text : Subject) (start stop : Nat) : Prop :=
  ∃ pc, p.Reaches text start pc stop ∧ p.code[pc]? = some .done

/-- Where a way from a position comes to another position: at the start of the program, or
behind the instruction that took the character in between. -/
inductive Arrives (p : Program) (text : Subject) (a : Nat) : Nat → Nat → Prop
  | start : Arrives p text a p.start a
  | take {pc next pos : Nat} {set : CharSet} {c : Char} (way : p.Reaches text a pc pos)
      (step : p.Takes text pos pc next set c) : Arrives p text a next (pos + 1)

theorem Arrives.reaches (arrives : p.Arrives text a pc pos) : p.Reaches text a pc pos := by
  cases arrives with
  | start => exact .start
  | take way step => exact way.take step

/-- A way that leads somewhere else leads over instructions that take no character. -/
theorem Reaches.trans_skips (way : p.Reaches text a pc pos)
    (steps : Relation.ReflTransGen (p.Skips (text.place pos)) pc pc') :
    p.Reaches text a pc' pos := by
  induction steps with
  | refl => exact way
  | tail _ step ih => exact ih.skip step

theorem Reaches.exists_arrives (way : p.Reaches text a pc pos) :
    ∃ q, p.Arrives text a q pos ∧ Relation.ReflTransGen (p.Skips (text.place pos)) q pc := by
  induction way with
  | start => exact ⟨_, .start, .refl⟩
  | skip _ step ih =>
      obtain ⟨q, arrives, steps⟩ := ih
      exact ⟨q, arrives, steps.tail step⟩
  | take way step => exact ⟨_, .take way step, .refl⟩

theorem Reaches.le (way : p.Reaches text a pc pos) : a ≤ pos := by
  induction way with
  | start => exact Nat.le_refl _
  | skip _ _ ih => exact ih
  | take _ _ ih => exact Nat.le_succ_of_le ih

theorem Reaches.le_size (way : p.Reaches text a pc pos) (inside : a ≤ text.size) :
    pos ≤ text.size := by
  induction way with
  | start => exact inside
  | skip _ _ ih => exact ih
  | take _ step _ => exact Subject.lt_size_of_after? step.after

/-- The conditions that a program asks for. -/
def looks (p : Program) : List Look :=
  p.code.toList.filterMap fun
    | .look l _ => some l
    | _ => none

theorem mem_looks {l : Look} {next : Nat} (here : p.code[pc]? = some (.look l next)) :
    l ∈ p.looks :=
  List.mem_filterMap.mpr ⟨.look l next, Array.mem_toList_iff.mpr (Array.mem_of_getElem? here), rfl⟩

section Agree

variable {chars chars' : List Char} {stop : Nat}

/-- Texts that are alike up to a position look alike around those before it. -/
theorem place_eq_of_take_eq (same : chars.take stop = chars'.take stop) (before : pos < stop) :
    (Subject.ofList chars).place pos = (Subject.ofList chars').place pos := by
  have alike (n : Nat) (inside : n < stop) : chars[n]? = chars'[n]? := by
    rw [← List.getElem?_take_of_lt inside, same, List.getElem?_take_of_lt inside]
  unfold Subject.place
  rw [Subject.before?_ofList, Subject.before?_ofList, Subject.after?_ofList, Subject.after?_ofList,
    alike pos before]
  cases pos with
  | zero => rfl
  | succ n => rw [Regexp.before?, Regexp.before?, alike n (Nat.lt_of_succ_lt before)]

/-- A way up to a position is one in any text that is alike up to there and in which the same
conditions hold there. -/
theorem Reaches.of_take_eq (same : chars.take stop = chars'.take stop)
    (behind : ∀ l ∈ p.looks, l.holdsAt chars stop = true → l.holdsAt chars' stop = true)
    (way : p.Reaches (.ofList chars) a pc pos) (within : pos ≤ stop) :
    p.Reaches (.ofList chars') a pc pos := by
  induction way with
  | start => exact .start
  | @skip pc pc' pos _ step ih =>
      refine (ih within).skip ?_
      rcases Nat.lt_or_eq_of_le within with before | rfl
      · rwa [← place_eq_of_take_eq same before]
      · cases step with
        | look here holds =>
            refine .look here ?_
            have held := behind _ (mem_looks here)
            simp only [Look.holdsAt, ← Subject.before?_ofList, ← Subject.after?_ofList] at held
            exact held holds
        | save here => exact .save here
        | first here => exact .first here
        | second here => exact .second here
  | @take pc next pos set c _ step ih =>
      refine (ih (Nat.le_of_succ_le within)).take ⟨step.here, ?_, step.accepts⟩
      have alike := congrArg Place.after (place_eq_of_take_eq same within)
      exact alike.symm.trans step.after

/-- A program sees of what is behind a match only the conditions that it asks for. -/
theorem sees (p : Program) : Sees p.looks fun text a stop => p.Matches (.ofList text) a stop := by
  rintro text text' a stop ⟨pc, way, done⟩ same behind
  exact ⟨pc, way.of_take_eq same behind (Nat.le_refl stop), done⟩

end Agree

end Program

end EditorLisp.Regexp
