import EditorLisp.Proofs.Evaluation.Call
import EditorLisp.Proofs.Levels
import EditorLisp.Proofs.Store.Lists

/-!
# Lists turned around in place

A list is turned around by linking its pairs the other way, one at a time.  What has been turned
around by then and what is still to come are two lists without a common pair, and together they have
all pairs of the list; this is what each step keeps.  Nobody else loses anything: the elements stay
in their pairs, and the pairs of other lists stay as they are, even if such a list shares some of
those that are turned around.
-/

namespace EditorLisp

open Eval Store

variable {s : Session} {v behind : Value} {refs done : List Nat} {items before : List Value}

namespace Primitives

/-- One pair after the other is linked to those that were in front of it. -/
theorem reversePairs_eq {fuel : Nat} (turned : s.store.ListsAt behind done before)
    (listed : s.store.ListsAt v refs items) (apart : done.Disjoint refs)
    (enough : refs.length ≤ fuel) :
    ∃ result store, reversePairs fuel behind v s = .ok result { s with store } ∧
      store.ListsAt result (refs.reverse ++ done) (items.reverse ++ before) ∧
        s.store.RelinkedTo refs store := by
  induction fuel generalizing s v behind refs done items before with
  | zero =>
      cases listed with
      | nil => exact ⟨behind, s.store, rfl, turned, .refl _⟩
      | cons _ _ => cases enough
  | succ fuel ih =>
      cases listed with
      | nil => exact ⟨behind, s.store, rfl, turned, .refl _⟩
      | @cons ref p refs items there rest =>
          have notLater : ref ∉ refs := (List.nodup_cons.mp (ListsAt.cons there rest).nodup).1
          have notDone : ref ∉ done := List.disjoint_right.mp apart List.mem_cons_self
          have step : reversePairs (fuel + 1) behind (.cons ref) s =
              reversePairs fuel (.cons ref) p.cdr
                { s with store := s.store.setCdr (.cons ref) behind } := by
            have next : (cdr (.cons ref)) s = .ok p.cdr s :=
              congrArg (Outcome.ok · s) (cdr_of_there there)
            rw [reversePairs, if_pos (show Value.isCons (.cons ref) = true from rfl),
              bind_of_ok _ next]
            rfl
          obtain ⟨result, store, turnedAll, listed', relinked⟩ :=
            ih (s := { s with store := s.store.setCdr (.cons ref) behind })
              (turned.link there notDone) (rest.setCdr notLater behind)
              (List.disjoint_cons_left.mpr ⟨notLater, List.disjoint_of_disjoint_cons_right apart⟩)
              (Nat.le_of_succ_le_succ enough)
          refine ⟨result, store, step.trans turnedAll, ?_,
            (RelinkedTo.setCdr s.store ref behind).trans relinked⟩
          simpa using listed'

/-- A copy in reverse order is made of a list. -/
theorem reversed_eq (lists : s.store.Lists v items) :
    reversed v s = .ok (s.store.list items.reverse).1
      { s with store := (s.store.list items.reverse).2 } := by
  have read : (properList v) s = .ok items s := by
    unfold properList
    rw [lists.list?_eq]
  cases lists with
  | nil => exact bind_of_ok _ read
  | cons there rest => exact bind_of_ok _ read

theorem nreverse_eq (I : Interp) (listed : s.store.ListsAt v refs items) :
    ∃ result store, nreverse I [v] s = .ok result { s with store } ∧
      store.ListsAt result refs.reverse items.reverse ∧ s.store.RelinkedTo refs store := by
  have enough : refs.length ≤ 2 * s.store.pairs.size + 2 := by
    have fits := listed.length_le
    omega
  have turned := reversePairs_eq .nil listed (List.disjoint_nil_left refs) enough
  rw [List.append_nil, List.append_nil] at turned
  cases listed with
  | nil => exact ⟨.nil, s.store, rfl, .nil, .refl _⟩
  | cons there rest => exact turned

theorem primitive?_nreverse : primitive? "nreverse" = some nreverse :=
  primitive?_of_sequences rfl

theorem primitive?_reverse : primitive? "reverse" = some (unary "reverse" reversed) :=
  primitive?_of_sequences rfl

/-- A list is turned around in place.  The result has the same pairs in reverse order, each with its
element, and the pair that was first is the last one.  Those pairs are linked the other way, and
nothing else in the store is changed.  The elements are those of the reversed copy that is made of
the list. -/
theorem nreverse_reverses (lists : s.store.Lists v items) :
    ∃ refs result store, s.store.ListsAt v refs items ∧
      Interp.Applies (.subr "nreverse") [v] s (.ok result { s with store }) ∧
        store.ListsAt result refs.reverse items.reverse ∧
          (∀ ref, v = .cons ref → refs.reverse.getLast? = some ref ∧ store.cdr v = .nil) ∧
            s.store.RelinkedTo refs store ∧
              ∃ copy t, Interp.Applies (.subr "reverse") [v] s (.ok copy t) ∧
                t.store.Lists copy items.reverse := by
  obtain ⟨refs, listed⟩ := lists.exists_listsAt
  obtain ⟨result, store, turned, listed', relinked⟩ := nreverse_eq (.ofLevel 0) listed
  have copied := (lists_list s.store items.reverse).1
  refine ⟨refs, result, store, listed, .of_primitive? primitive?_nreverse (fun I => turned) nofun,
    listed', fun ref first => ?_, relinked, _, _,
    .of_primitive? primitive?_reverse (fun I => reversed_eq lists) nofun, copied⟩
  subst first
  have last : refs.reverse.getLast? = some ref := List.getLast?_reverse.trans listed.head?
  exact ⟨last, listed'.cdr_getLast last⟩

/-- The pairs of `(1 2 3)`, and one more that has `(2 3)` for its rest. -/
def sharedTail : Store where
  pairs := #[⟨.int 3, .nil⟩, ⟨.int 2, .cons 0⟩, ⟨.int 1, .cons 1⟩, ⟨.int 7, .cons 1⟩]

/-- `(1 2 3)` is turned around, and the other list still starts with its own pair. -/
theorem nreverse_reverses_sharedTail :
    sharedTail.Lists (.cons 2) [.int 1, .int 2, .int 3] ∧
      ∃ result store,
        Interp.Applies (.subr "nreverse") [.cons 2] { store := sharedTail }
            (.ok result { store }) ∧
          store.ListsAt result [0, 1, 2] [.int 3, .int 2, .int 1] ∧
            store.pairs[3]? = some ⟨.int 7, .cons 1⟩ := by
  have listed : sharedTail.ListsAt (.cons 2) [2, 1, 0] [.int 1, .int 2, .int 3] :=
    .cons (p := ⟨.int 1, .cons 1⟩) rfl <| .cons (p := ⟨.int 2, .cons 0⟩) rfl <|
      .cons (p := ⟨.int 3, .nil⟩) rfl .nil
  obtain ⟨refs, result, store, listed', applies, turned, -, relinked, -⟩ :=
    nreverse_reverses (s := { store := sharedTail }) listed.lists
  obtain ⟨rfl, -⟩ := listed.unique listed'
  exact ⟨listed.lists, result, store, applies, turned, relinked.elsewhere 3 (by decide)⟩

end Primitives

end EditorLisp
