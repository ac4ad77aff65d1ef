import EditorLisp.Primitives.Report
import EditorLisp.Proofs.Interpreter

/-!
# Conditions that programs define

A program defines conditions by `define-error` only, and a call of that which fails has
changed nothing.  The conditions of a session are therefore those of a new one after some
history of definitions, however many programs were run and however they ended, and they
are a forest.
-/

namespace EditorLisp

namespace Eval

variable {α β : Type}

/-- A step that leaves the conditions as they are, however it ends. -/
class KeepsConditions (m : Eval α) : Prop where
  keeps : ∀ s, (m s).Leaves fun t => t.conditions = s.conditions

/-- A step that has not changed the conditions when it leaves. -/
def LeavesConditions (m : Eval α) : Prop :=
  ∀ ⦃s flow t⦄, m s = .exit flow t → t.conditions = s.conditions

namespace KeepsConditions

instance pure (a : α) : KeepsConditions (Pure.pure a : Eval α) := ⟨fun _ => rfl⟩

instance leave (flow : Flow) : KeepsConditions (Eval.leave flow : Eval α) := ⟨fun _ => rfl⟩

instance session : KeepsConditions Eval.session := ⟨fun _ => rfl⟩

instance car (v : Value) : KeepsConditions (Eval.car v) := ⟨fun _ => rfl⟩

instance error (message : String) : KeepsConditions (Eval.error message : Eval α) := ⟨fun _ => rfl⟩

instance between (name : String) (args : List Value) (minimum maximum : Nat) :
    KeepsConditions (Eval.between name args minimum maximum) := by
  unfold Eval.between
  split
  · exact pure _
  · exact leave _

instance symbolName (v : Value) : KeepsConditions (Eval.symbolName v) := by
  unfold Eval.symbolName
  split
  · exact pure _
  · exact leave _

instance string (v : Value) : KeepsConditions (Eval.string v) := by
  unfold Eval.string
  split
  · exact pure _
  · exact leave _

end KeepsConditions

theorem leavesConditions_of_keeps (m : Eval α) [step : KeepsConditions m] : LeavesConditions m := by
  intro s flow t left
  have ended := step.keeps s
  rwa [left] at ended

theorem leavesConditions_bind {m : Eval α} {f : α → Eval β} [first : KeepsConditions m]
    (next : ∀ a, LeavesConditions (f a)) : LeavesConditions (m >>= f) := by
  intro s flow t left
  have kept := first.keeps s
  obtain ended | ⟨a, s', returned, later⟩ := exit_of_bind left
  · rwa [ended] at kept
  · rw [returned] at kept
    exact (next a later).trans kept

end Eval

open Eval

theorem leavesConditions_registering (name message parent : String) : LeavesConditions (do
    match (← session).conditions.define name message parent with
    | .ok conditions =>
      modify fun s => { s with conditions }
      return .nil
    | .error refusal => error refusal.message : Eval Value) := by
  apply leavesConditions_bind
  intro s
  split
  · exact fun _ _ _ left => nomatch left
  · exact leavesConditions_of_keeps _

/-- A call of `define-error` that fails, be it for its arguments or because the definition is
refused, leaves the conditions as they are. -/
theorem leavesConditions_defineError (I : Interp) (args : List Value) :
    LeavesConditions (Primitives.defineError I args) := by
  unfold Primitives.defineError
  dsimp only
  refine leavesConditions_bind fun _ => leavesConditions_bind fun name => ?_
  -- The message may be left out, and so may the parent.
  split
  all_goals
    refine leavesConditions_bind fun message => ?_
    split
    · exact leavesConditions_bind fun parent => leavesConditions_registering name message parent
    · exact leavesConditions_bind fun head => leavesConditions_bind fun parent =>
        leavesConditions_registering name message parent

namespace Conditions

/-- Whatever has been defined and refused since the start, in whatever order, the conditions
are a forest, and another definition that is refused changes nothing, made by a program or
not. -/
theorem forest_run (history : List Definition) :
    (initial.run history).Forest ∧
      (∀ d refusal, (initial.run history).define d.name d.message d.parent = .error refusal →
        (initial.run history).call d = initial.run history) ∧
      ∀ I args, LeavesConditions (Primitives.defineError I args) := by
  refine ⟨forest_of_grounded (grounded_run grounded_initial history), ?_,
    leavesConditions_defineError⟩
  intro d refusal refused
  rw [call, refused]

/-- After `a` was defined under a condition that is itself defined later, that one cannot be
put under `a`. -/
theorem forest_run_refused :
    let history : List Definition := [⟨"a", "", "b"⟩, ⟨"b", "", "error"⟩]
    (initial.run history).handles "b" "a" = true ∧
      (initial.run history).call ⟨"b", "", "a"⟩ = initial.run history := by
  intro history
  obtain ⟨forest, unchanged, -⟩ := forest_run history
  have parent : (initial.run history).parent? "a" = some "b" := by decide +kernel
  have below : "b" ∈ (initial.run history).chain "a" := forest.mem_chain.mpr (.inr (.single parent))
  have refused : (initial.run history).define "b" "" "a" = .error (.ownAncestor "b") := by
    rw [define, if_neg (by decide), if_pos (.inr below)]
  exact ⟨(forest.handles_iff (by decide) "a").mpr (.inr (.single parent)),
    unchanged _ _ refused⟩

end Conditions

/-- Whatever programs are run, the conditions are a forest, made from those of a new session by
definitions. -/
theorem forest_evalSource (source : String) {s : Session} (inOrder : s.workspace.WellFormed)
    (developed : Conditions.initial.Develops s.conditions) :
    (evalSource source s).Leaves fun t =>
      t.conditions.Forest ∧ Conditions.initial.Develops t.conditions := by
  apply ((restores_evalSource source).restores s inOrder).mono
  intro t kept
  have developed := developed.trans kept.develops
  have grounded := developed.grounded Conditions.grounded_initial
  exact ⟨Conditions.forest_of_grounded grounded, developed⟩

end EditorLisp
