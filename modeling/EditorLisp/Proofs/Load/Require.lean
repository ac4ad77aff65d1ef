import EditorLisp.Interpreter
import EditorLisp.Proofs.Load.Loader
import EditorLisp.Proofs.Load.Visits
import EditorLisp.Proofs.Parameter

/-!
# Requiring a feature of a library

A feature that is required is loaded unless it is present or being loaded, and its file
requires others in turn.  The features may need each other in circles; every one that is
loaded is kept from being loaded again, first because it is being loaded and then because it
is present.  So requiring one loads each feature that it needs once, provided none of them
was present or being loaded before: a feature that is being loaded is passed over although
it is not there yet.
-/

namespace EditorLisp

open Eval

/-- The evaluation was left because it was nested too deeply. -/
def Outcome.TooDeep {α : Type} (o : Outcome α) : Prop :=
  ∃ data s, o = .exit (.signal "excessive-lisp-nesting" data) s

/-! ## The form of a feature -/

namespace Store

variable {st : Store} {v : Value} {feature : String}

theorem list?_singleton {ref : Nat} {item : Value}
    (there : st.pairs[ref]? = some ⟨item, .nil⟩) : st.list? (.cons ref) = some [item] := by
  have stops (fuel : Nat) : st.walk fuel .nil [item] = ([item], .nil) := by
    cases fuel <;> rfl
  unfold list? spine
  simp only [walk, there, stops]

theorem isList_of_there {ref ref' : Nat} {head item : Value}
    (first : st.pairs[ref]? = some ⟨head, .cons ref'⟩)
    (second : st.pairs[ref']? = some ⟨item, .nil⟩) : st.IsList (.cons ref) head [item] where
  isPair := ⟨ref, rfl⟩
  car_eq := by rw [car_of_there first]
  cdr_eq := by rw [cdr_of_there first, list?_singleton second]

end Store

theorem Value.symbolName?_ofName (name : String) : (Value.ofName name).symbolName? = some name := by
  unfold ofName
  split
  next isNil => exact congrArg some isNil.symm
  next =>
      split
      next isT => exact congrArg some isT.symm
      next => split <;> rfl

namespace Eval

variable {s : Session} {form : Value} {feature : String}

end Eval

/-! ## How requiring ends -/

namespace Library

variable {lib : Library} {s : Session} {f : String} {n level : Nat}

/-- How it ends to require wanted features one after the other: either it was nested too
deeply, for which there was not enough room, or all went well, the missing features having
been visited and the file of each evaluated in that order. -/
inductive Ends {α : Type} (lib : Library) (s : Session) (wanted : List String) (room : Nat)
    (answer : α) : Outcome α → Prop
  | tooDeep {o : Outcome α} (left : o.TooDeep) (short : s.config.maxDepth < s.depth + room) :
      Ends lib s wanted room answer o
  | returned {t : Session} {order : List String}
      (visits : Visits lib.requires s.loading s.features wanted order t.features)
      (alike : s.LoadsLike t) (loading_eq : t.loading = s.loading) (depth_eq : t.depth = s.depth)
      (store_eq : t.store = order.foldl lib.loaded s.store) :
      Ends lib s wanted room answer (.ok answer t)

/-- Four features, of which the first three need each other in a circle. -/
def circle : Library where
  features := ["a", "b", "c", "d"]
  path name := name ++ ".el"
  requires name := match name with
    | "a" => ["b"]
    | "b" => ["c"]
    | _ => ["a"]
  closed := by decide

end Library

end EditorLisp
