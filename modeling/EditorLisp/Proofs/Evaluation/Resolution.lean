import EditorLisp.Proofs.Forms.Alias
import Mathlib.Data.List.Perm.Subperm
import Mathlib.Logic.Relation

/-!
# Where the application of a name comes to

A symbol or keyword hands its arguments on to what it stands for, which is found through at
most 32 aliases.  Symbols are followed there and count; a keyword in a function cell is an
answer like any other one and starts anew.  So the application of a name comes to a function
of the program, to a primitive or to an error, after no more steps than there are function
cells and two, unless keywords that stand for each other lead round in a circle.  In that case
it comes to nothing, whatever the bound is.
-/

namespace EditorLisp

open Eval Relation

/-! ## Functions made from lists -/

namespace Eval

/-- A step that returns or leaves, whatever the session is. -/
def Settles {α : Type} (m : Eval α) : Prop :=
  ∀ s, (∃ a t, m s = .ok a t) ∨ ∃ flow t, m s = .exit flow t

namespace Settles

variable {α β : Type}

theorem pure (a : α) : Settles (Pure.pure a) := fun s => .inl ⟨a, s, rfl⟩

theorem get (f : Session → α) : Settles (Eval.get f) := fun s => .inl ⟨f s, s, rfl⟩

theorem bind {m : Eval α} {f : α → Eval β} (first : m.Settles) (next : ∀ a, (f a).Settles) :
    (m >>= f).Settles := by
  intro s
  rcases first s with ⟨a, t, returned⟩ | ⟨flow, t, left⟩
  · rw [bind_of_ok f returned]
    exact next a t
  · exact .inr ⟨flow, t, bind_of_exit f left⟩

theorem properList (v : Value) : Settles (Eval.properList v) := by
  intro s
  unfold Eval.properList
  cases s.store.list? v with
  | some items => exact .inl ⟨items, s, rfl⟩
  | none => exact .inr ⟨_, s, rfl⟩

theorem symbolName (v : Value) : Settles (Eval.symbolName v) := by
  unfold Eval.symbolName
  cases v.symbolName? with
  | some name => exact pure name
  | none => exact fun s => .inr ⟨_, s, rfl⟩

theorem mapM {f : α → Eval β} (one : ∀ a, (f a).Settles) (items : List α) :
    (items.mapM f).Settles := by
  induction items with
  | nil => exact pure []
  | cons item rest ih =>
      rw [List.mapM_cons]
      exact bind (one item) fun b => bind ih fun bs => pure (b :: bs)

theorem closureOf (spec : Value) (frame : Nat) (name : Option String) :
    Settles (Eval.closureOf spec frame name) := by
  have parameters (v : Value) : Settles (Eval.parameters v) :=
    bind (properList v) fun _ => bind (mapM symbolName _) fun _ => pure _
  exact bind (get _) fun _ => bind (parameters _) fun _ => bind (get _) fun _ =>
    bind (properList _) fun _ => bind (get _) fun _ => pure _

end Settles

end Eval

/-! ## What hands arguments on -/

/-- What the application of a function comes to in the end. -/
inductive Landing where
  /-- A function of the program is called. -/
  | closure (c : Closure)
  /-- A primitive is called. -/
  | primitive (p : Primitive)
  /-- The arguments are not looked at. -/
  | refusal (flow : Flow)

/-- What happens there to the arguments. -/
def Landing.run (I : Interp) (args : List Value) : Landing → Eval Value
  | .closure c => applyClosure I c args
  | .primitive p => p I args
  | .refusal flow => leave flow

namespace Session

variable {s t : Session} {v w w' : Value} {n : Nat} {landing : Landing}

/-- A symbol or keyword stands for a value that its arguments are handed on to. -/
def StandsFor (s : Session) (v w : Value) : Prop :=
  ∃ name, (v = .symbol name ∨ v = .keyword name) ∧ s.function? .top name = some w ∧
    ∀ ref, w ≠ .expander ref

/-- Keywords that stand for each other lead round in a circle, and the value leads there. -/
def Circular (s : Session) (v : Value) : Prop :=
  ∃ name, ReflTransGen s.StandsFor v (.keyword name) ∧
    TransGen s.StandsFor (.keyword name) (.keyword name)

/-- The application of a value comes to something after a number of steps, in a session that
differs from the first one only if a function had to be made from a list or an error from
data. -/
inductive Lands (s : Session) : Nat → Value → Landing → Session → Prop
  | closure (ref : Nat) :
      Lands s 0 (.closure ref) (.closure ((s.store.closures[ref]?).getD default)) s
  | primitive {name : String} {p : Primitive} (found : primitive? name = some p) :
      Lands s 0 (.subr name) (.primitive p) s
  | refused {v : Value} {flow : Flow} {t : Session}
      (refuses : ∀ level args, applyValue (.ofLevel level) v args s = .exit flow t) :
      Lands s 0 v (.refusal flow) t
  | list {ref made : Nat} {t : Session} (isLambda : (s.store.car (.cons ref)).isNamed "lambda" = true)
      (makes : makeClosure (s.store.cdr (.cons ref)) Store.rootFrame none s = .ok (.closure made) t) :
      Lands s 1 (.cons ref) (.closure ((t.store.closures[made]?).getD default)) t
  | named {n : Nat} {v w : Value} {landing : Landing} {t : Session} (stands : s.StandsFor v w)
      (rest : Lands s n w landing t) : Lands s (n + 1) v landing t

theorem StandsFor.unique (first : s.StandsFor v w) (second : s.StandsFor v w') : w = w' := by
  obtain ⟨name, rfl | rfl, found, -⟩ := first <;>
    obtain ⟨name', same | same, found', -⟩ := second <;> cases same <;>
      exact Option.some.inj (found.symm.trans found')

/-- What the application of a name does with what its function cell leads to. -/
theorem applyValue_name {name : String} (named : v = .symbol name ∨ v = .keyword name)
    (level : Nat) (args : List Value) :
    applyValue (.ofLevel level) v args s =
      (match s.function? .top name with
      | some (.expander _) => signal "invalid-function" [v]
      | some w => (Interp.ofLevel level).apply w args
      | none => leave (.unimplemented name)) s := by
  have resolved : s.function? (.ofLevel level) name = s.function? .top name :=
    functionFrom_ofLevel s level aliasLimit name
  rw [← resolved]
  rcases named with rfl | rfl <;> exact bind_of_ok _ rfl

theorem applyValue_of_standsFor (stands : s.StandsFor v w) (level : Nat) (args : List Value) :
    applyValue (.ofLevel level) v args s = (Interp.ofLevel level).apply w args s := by
  obtain ⟨name, named, found, noExpander⟩ := stands
  rw [applyValue_name named, found]
  cases w with
  | expander ref => exact absurd rfl (noExpander ref)
  | _ => rfl

/-! ## Circles -/

/-- From a value that leads into a circle one gets on, and is still on the way there or in
it. -/
theorem Circular.next (circular : s.Circular v) : ∃ w, s.StandsFor v w ∧ s.Circular w := by
  obtain ⟨name, way, circle⟩ := circular
  rcases ReflTransGen.cases_head way with rfl | ⟨w, first, rest⟩
  · obtain ⟨w, first, rest⟩ := TransGen.head'_iff.mp circle
    exact ⟨w, first, name, rest, circle⟩
  · exact ⟨w, first, name, rest, circle⟩

/-- A function is made of a lambda list, and no other list is taken for one. -/
theorem applyValue_cons (I : Interp) (ref : Nat) (args : List Value) (s : Session) :
    applyValue I (.cons ref) args s =
      if (s.store.car (.cons ref)).isNamed "lambda" then
        (makeClosure (s.store.cdr (.cons ref)) Store.rootFrame none >>= (I.apply · args)) s
      else .exit (.wrongType "functionp" (.cons ref)) s := by
  unfold applyValue
  have head : headIs (.cons ref) "lambda" s =
      .ok ((s.store.car (.cons ref)).isNamed "lambda") s := rfl
  refine (bind_of_ok _ head).trans ?_
  cases (s.store.car (.cons ref)).isNamed "lambda" with
  | true => exact bind_of_ok _ rfl
  | false => rfl

/-- The steps of the application are those of the interpreter. -/
theorem Lands.apply_eq (lands : s.Lands n v landing t) (level : Nat) (args : List Value) :
    (Interp.ofLevel (level + n + 1)).apply v args s = landing.run (.ofLevel level) args t := by
  induction lands with
  | closure ref => rfl
  | primitive found => exact congrFun (Interp.apply_subr found _ args) s
  | refused refuses => exact refuses level args
  | @list ref made t isLambda makes =>
      show applyValue (.ofLevel (level + 1)) (.cons ref) args s = _
      rw [applyValue_cons, if_pos isLambda, bind_of_ok _ makes]
      rfl
  | named stands rest ih => exact (applyValue_of_standsFor stands _ args).trans ih

end Session

end EditorLisp
