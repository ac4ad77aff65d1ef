import EditorLisp.Proofs.Condition
import EditorLisp.Proofs.Forms.Scope

/-!
# Throws that pass handlers

A throw on its way to its `catch` is seen by handlers as the condition `throw`.  That one is
not defined in a new session, so it has no parent and is below no other condition: only a
handler for all conditions or for `throw` itself covers it.  This lasts until a program
defines `throw` as a condition.  From then on a throw is an error of that kind, and
`ignore-errors` absorbs it.
-/

namespace EditorLisp

namespace Conditions

variable {c : Conditions} {name : String}

/-- A condition without a parent is alone in its chain. -/
theorem chain_of_parent?_eq_none (top : c.parent? name = none) : c.chain name = [name] := by
  rw [chain, chainFrom, if_neg List.not_mem_nil, top]

theorem handles_of_parent?_eq_none (top : c.parent? name = none) {spec : String}
    (covered : c.handles spec name = true) : spec = "t" ∨ spec = name := by
  rw [handles, chain_of_parent?_eq_none top] at covered
  simpa using covered

end Conditions

namespace Forms

open Eval

/-- A handler's specification is `t` or a condition, or a list with one of them. -/
def Names (st : Store) (spec : Value) (condition : String) : Prop :=
  ∃ item, (item = spec ∨ item ∈ st.elements spec) ∧
    (item.symbolName? = some "t" ∨ item.symbolName? = some condition)

/-- A condition without a parent is covered under its own name only. -/
theorem names_of_specCovers {s : Session} {spec : Value} {condition : String}
    (top : s.conditions.parent? condition = none) (covers : specCovers s spec condition = true) :
    Names s.store spec condition := by
  have named {item : Value} {name : String} (isName : item.symbolName? = some name)
      (handled : s.conditions.handles name condition = true) :
      item.symbolName? = some "t" ∨ item.symbolName? = some condition := by
    rw [isName]
    exact (Conditions.handles_of_parent?_eq_none top handled).imp (congrArg some) (congrArg some)
  unfold specCovers at covers
  split at covers
  · obtain ⟨item, member, covers⟩ := List.any_eq_true.mp covers
    obtain ⟨name, isName, handled⟩ := (Option.any_eq_true ..).mp covers
    exact ⟨item, .inr member, named isName handled⟩
  · obtain ⟨name, isName, covers⟩ := (Option.any_eq_true ..).mp covers
    exact ⟨spec, .inl rfl, named isName (Bool.and_eq_true_iff.mp covers).2⟩

section Throws

variable (I : Interp) (frame : Nat) {s t : Session} {tag value : Value}

/-- A throw out of `ignore-errors` goes by whether `throw` is below the root. -/
theorem ignoreErrors_of_throw (forms : List Value)
    (left : I.evalBody frame forms s = .exit (.throw tag value) t) :
    ignoreErrors I forms frame s =
      if t.conditions.handles Conditions.root "throw" then .ok .nil t
      else .exit (.throw tag value) t := by
  unfold ignoreErrors
  rw [bind_of_ok _ (attempt_of_exit left)]
  dsimp only
  rw [bind_of_ok _ (show get (·.conditions) t = .ok t.conditions t from rfl)]
  simp only [Flow.condition?, Option.any_some]
  exact apply_ite (fun m : Eval Value => m t) ..

variable (undefined : t.conditions.parent? "throw" = none)

include undefined

theorem ignoreErrors_passes (forms : List Value)
    (left : I.evalBody frame forms s = .exit (.throw tag value) t) :
    ignoreErrors I forms frame s = .exit (.throw tag value) t := by
  rw [ignoreErrors_of_throw I frame forms left]
  apply if_neg
  intro covered
  rcases Conditions.handles_of_parent?_eq_none undefined covered with same | same <;>
    exact absurd same (by decide)

theorem conditionCase_passes {place form : Value} {handlers : List Value} {x : String}
    (named : place.symbolName? = some x) (lists : handlers.find? (!·.isList) = none)
    (left : I.eval form frame s = .exit (.throw tag value) t) :
    conditionCase I (place :: form :: handlers) frame s = .exit (.throw tag value) t ∨
      ∃ handler ∈ handlers, Names t.store (t.store.car handler) "throw" ∧
        ∃ record t', alloc (Flow.throw tag value).record t = .ok record t' ∧
          conditionCase I (place :: form :: handlers) frame s =
            runHandler I frame handler x record t' := by
  rw [conditionCase_eq named lists (attempt_of_exit left)]
  simp only [Flow.condition?, Option.bind_some]
  cases found : handlerFor? t "throw" handlers with
  | none => exact .inl rfl
  | some handler =>
      have covers := List.find?_some found
      have member := List.mem_of_find?_eq_some found
      have names := names_of_specCovers undefined (Bool.and_eq_true_iff.mp covers).2
      exact .inr ⟨handler, member, names, _, _, rfl, rfl⟩

end Throws

/-- What becomes of a throw that leaves the forms under a handler in a session in which `throw`
has no parent. -/
structure ThrowsPass (I : Interp) (s t : Session) (tag value : Value) : Prop where
  /-- `ignore-errors` lets it pass. -/
  ignoreErrors {forms : List Value} {frame : Nat}
    (left : I.evalBody frame forms s = .exit (.throw tag value) t) :
    ignoreErrors I forms frame s = .exit (.throw tag value) t
  /-- `condition-case` lets it pass, or runs a handler that names `t` or `throw`. -/
  conditionCase {place form : Value} {handlers : List Value} {x : String} {frame : Nat}
    (named : place.symbolName? = some x) (lists : handlers.find? (!·.isList) = none)
    (left : I.eval form frame s = .exit (.throw tag value) t) :
    conditionCase I (place :: form :: handlers) frame s = .exit (.throw tag value) t ∨
      ∃ handler ∈ handlers, Names t.store (t.store.car handler) "throw" ∧
        ∃ record t', alloc (Flow.throw tag value).record t = .ok record t' ∧
          conditionCase I (place :: form :: handlers) frame s =
            runHandler I frame handler x record t'

/-- Until `throw` is defined as a condition, throws pass `ignore-errors` and all handlers that
do not ask for them. -/
theorem throwsPass (I : Interp) {s t : Session} (tag value : Value)
    (undefined : t.conditions.parent? "throw" = none) : ThrowsPass I s t tag value where
  ignoreErrors := ignoreErrors_passes I _ undefined _
  conditionCase := conditionCase_passes I _ undefined

/-- Definitions of other conditions do not matter to a throw that passes `ignore-errors`. -/
theorem throwsPass_defined :
    let s : Session :=
      { conditions := Conditions.initial.run [⟨"mine", "", "error"⟩]
        store := { pairs := #[⟨.symbol "throw", .cons 1⟩, ⟨.int 1, .cons 2⟩, ⟨.int 3, .nil⟩] } }
    ∃ t, ignoreErrors (.ofLevel 2) [.cons 0] 0 s = .exit (.throw (.int 1) (.int 3)) t := by
  intro s
  have left : ∃ t, (Interp.ofLevel 2).evalBody 0 [.cons 0] s =
      .exit (.throw (.int 1) (.int 3)) t ∧ t.conditions = s.conditions := ⟨_, rfl, rfl⟩
  obtain ⟨t, left, same⟩ := left
  have undefined : t.conditions.parent? "throw" = none := by
    rw [same]
    apply (Conditions.parent?_run_of_unmentioned (by decide)).trans
    decide +kernel
  exact ⟨t, (throwsPass (.ofLevel 2) _ _ undefined).ignoreErrors left⟩

/-- Once `throw` has been defined, which puts it under `error`, a throw goes no further than
`ignore-errors` or a handler for errors. -/
theorem throwsPass_throw :
    let s : Session :=
      { conditions := Conditions.initial.run [⟨"throw", "", "error"⟩]
        store := { pairs := #[⟨.symbol "throw", .cons 1⟩, ⟨.int 1, .cons 2⟩, ⟨.int 3, .nil⟩,
          ⟨.symbol "error", .cons 4⟩, ⟨.int 5, .nil⟩] } }
    (∃ t, (Interp.ofLevel 2).evalBody 0 [.cons 0] s = .exit (.throw (.int 1) (.int 3)) t) ∧
      (∃ t, ignoreErrors (.ofLevel 2) [.cons 0] 0 s = .ok .nil t) ∧
      ∃ t, conditionCase (.ofLevel 2) [.nil, .cons 0, .cons 3] 0 s = .ok (.int 5) t := by
  intro s
  exact ⟨⟨_, rfl⟩, ⟨_, rfl⟩, ⟨_, rfl⟩⟩

end Forms

end EditorLisp
