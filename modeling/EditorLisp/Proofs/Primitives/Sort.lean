import EditorLisp.Proofs.Evaluation.InTurn
import Mathlib.Data.List.Basic
import Mathlib.Data.List.Perm.Basic

/-!
# Sorting by a predicate of the program

The predicate is applied to two values of the sequence at a time and may do anything: it may answer
at random, change the sequence, leave or never come back.  As long as it returns, the sorting goes
on in the session that it left behind; the first application that does not return is how the sorting
ends.  What the answers are matters for the order only.
-/

/-!
## Merging by what one is told

Two lists are merged by asking, as long as both have a value in front, whether that of the second
one is to go first.  Whoever is asked may contradict himself and may say something else the next
time, and still all values are there in the end.  If what one is told is a strict weak order, the
merging of sorted lists is sorted, and values that tie stay as they were, those of the first list
before those of the second one.  A list that is sorted by merging has both from its parts.
-/

namespace EditorLisp

section Merging

variable {α : Type}

/-- Two lists are merged into one.  Each time one is told whether the value in front of the second
list is less than that in front of the first one. -/
inductive Merged (told : α → α → Bool → Prop) : List α → List α → List α → Prop
  | front (as : List α) : Merged told as [] as
  | back (bs : List α) : Merged told [] bs bs
  | yes {a b : α} {as bs out : List α} :
      told b a true → Merged told (a :: as) bs out → Merged told (a :: as) (b :: bs) (b :: out)
  | no {a b : α} {as bs out : List α} :
      told b a false → Merged told as (b :: bs) out → Merged told (a :: as) (b :: bs) (a :: out)

/-- A list is sorted by merging its sorted parts. -/
inductive MergeSorted (told : α → α → Bool → Prop) : List α → List α → Prop
  | short {items : List α} : items.length ≤ 1 → MergeSorted told items items
  | parts {front back as bs out : List α} :
      MergeSorted told front as → MergeSorted told back bs → Merged told as bs out →
        MergeSorted told (front ++ back) out

/-- Whether neither of two values is less. -/
def tied (less : α → α → Bool) (x y : α) : Bool := !less x y && !less y x

/-- Some values are in a strict weak order: those that tie are as good as equal. -/
structure StrictWeakOn (less : α → α → Bool) (items : List α) : Prop where
  irrefl : ∀ x ∈ items, ¬less x x
  trans : ∀ x ∈ items, ∀ y ∈ items, ∀ z ∈ items, less x y → less y z → less x z
  tie_trans : ∀ x ∈ items, ∀ y ∈ items, ∀ z ∈ items, tied less x y → tied less y z → tied less x z

/-- No value of a list is less than one before it. -/
def Ascending (less : α → α → Bool) (items : List α) : Prop :=
  items.Pairwise fun x y => ¬less y x

variable {told : α → α → Bool → Prop} {less : α → α → Bool} {items as bs out : List α}
  {a b x y z : α}

theorem tied_iff : tied less x y ↔ ¬less x y ∧ ¬less y x := by
  simp [tied]

/-! ### All values are there -/

theorem Merged.perm (merged : Merged told as bs out) : out.Perm (as ++ bs) := by
  induction merged with
  | front as => rw [List.append_nil]
  | back bs => exact .refl _
  | yes _ _ ih => exact (ih.cons _).trans List.perm_middle.symm
  | no _ _ ih => exact ih.cons _

theorem MergeSorted.perm (sorted : MergeSorted told items out) : out.Perm items := by
  induction sorted with
  | short _ => exact .refl _
  | parts _ _ merged front back => exact merged.perm.trans (front.append back)

/-! ### The order -/

namespace StrictWeakOn

variable (order : StrictWeakOn less items)
include order

theorem asymm (isX : x ∈ items) (isY : y ∈ items) (isLess : less x y) : ¬less y x :=
  fun back => order.irrefl x isX (order.trans x isX y isY x isX isLess back)

/-- Between two values, one of which is less, there is no room for a third. -/
theorem less_or_less (isX : x ∈ items) (isY : y ∈ items) (isZ : z ∈ items) (isLess : less x z) :
    less x y ∨ less y z := by
  by_contra! neither
  obtain ⟨notXY, notYZ⟩ := neither
  have notYX : ¬less y x := fun yx => notYZ (order.trans y isY x isX z isZ yx isLess)
  have notZY : ¬less z y := fun zy => notXY (order.trans x isX z isZ y isY isLess zy)
  have tie := order.tie_trans x isX y isY z isZ (tied_iff.mpr ⟨notXY, notYX⟩)
    (tied_iff.mpr ⟨notYZ, notZY⟩)
  exact (tied_iff.mp tie).1 isLess

/-- What is less than the first value of a sorted list is less than all of them. -/
theorem less_all (inItems : a :: as ⊆ items) (isB : b ∈ items)
    (ascending : Ascending less (a :: as)) (isLess : less b a) : ∀ v ∈ a :: as, less b v := by
  intro v inList
  have isA := inItems List.mem_cons_self
  rcases List.mem_cons.mp inList with rfl | later
  · exact isLess
  · exact (order.less_or_less isB (inItems inList) isA isLess).resolve_right
      (List.rel_of_pairwise_cons ascending later)

/-- What the first value of a sorted list is not less than, none of them is less than. -/
theorem not_less_all (inItems : b :: bs ⊆ items) (isA : a ∈ items)
    (ascending : Ascending less (b :: bs)) (notLess : ¬less b a) : ∀ v ∈ b :: bs, ¬less v a := by
  intro v inList below
  have isB := inItems List.mem_cons_self
  rcases List.mem_cons.mp inList with rfl | later
  · exact notLess below
  · rcases order.less_or_less (inItems inList) isB isA below with first | second
    · exact List.rel_of_pairwise_cons ascending later first
    · exact notLess second

end StrictWeakOn

/-- What one is told of some values is what a relation says. -/
def TruthOf (told : α → α → Bool → Prop) (less : α → α → Bool) (items : List α) : Prop :=
  ∀ x ∈ items, ∀ y ∈ items, ∀ answer, told x y answer → answer = less x y

section

variable (order : StrictWeakOn less items) (truth : TruthOf told less items)
include order truth

namespace Merged

/-- Sorted lists are merged into one that is sorted. -/
theorem ascending (merged : Merged told as bs out) (inFront : as ⊆ items) (inBack : bs ⊆ items)
    (front : Ascending less as) (back : Ascending less bs) : Ascending less out := by
  induction merged with
  | front as => exact front
  | back bs => exact back
  | @yes a b as bs out answer rest ih =>
      obtain ⟨isB, inRest⟩ := List.cons_subset.mp inBack
      have isLess : less b a := (truth b isB a (inFront List.mem_cons_self) true answer).symm
      refine List.pairwise_cons.mpr ⟨fun v inOut => ?_, ih inFront inRest front back.tail⟩
      rcases List.mem_append.mp (rest.perm.mem_iff.mp inOut) with inList | inList
      · exact order.asymm isB (inFront inList) (order.less_all inFront isB front isLess v inList)
      · exact List.rel_of_pairwise_cons back inList
  | @no a b as bs out answer rest ih =>
      obtain ⟨isA, inRest⟩ := List.cons_subset.mp inFront
      have isFalse : false = less b a := truth b (inBack List.mem_cons_self) a isA false answer
      have notLess : ¬less b a := by
        rw [← isFalse]
        exact Bool.false_ne_true
      refine List.pairwise_cons.mpr ⟨fun v inOut => ?_, ih inRest inBack front.tail back⟩
      rcases List.mem_append.mp (rest.perm.mem_iff.mp inOut) with inList | inList
      · exact List.rel_of_pairwise_cons front inList
      · exact order.not_less_all inBack isA back notLess v inList

/-- Values that tie stay in their order.  One of the second list only goes first when nothing that
is left of the first list ties with it. -/
theorem filter_tied (merged : Merged told as bs out) (inFront : as ⊆ items) (inBack : bs ⊆ items)
    (front : Ascending less as) (isX : x ∈ items) :
    out.filter (tied less x) = as.filter (tied less x) ++ bs.filter (tied less x) := by
  induction merged with
  | front as => rw [List.filter_nil, List.append_nil]
  | back bs => rfl
  | @yes a b as bs out answer rest ih =>
      obtain ⟨isB, inRest⟩ := List.cons_subset.mp inBack
      have isLess : less b a := (truth b isB a (inFront List.mem_cons_self) true answer).symm
      by_cases tie : tied less x b
      · -- all of the first list is greater, so it is not in the way
        have none : (a :: as).filter (tied less x) = [] := by
          refine List.filter_eq_nil_iff.mpr fun v inList tie' => ?_
          have isV := inFront inList
          have back : tied less b x := tied_iff.mpr (tied_iff.mp tie).symm
          have between := order.tie_trans b isB x isX v isV back tie'
          exact (tied_iff.mp between).1 (order.less_all inFront isB front isLess v inList)
        rw [List.filter_cons_of_pos tie, List.filter_cons_of_pos tie, ih inFront inRest front, none]
        rfl
      · rw [List.filter_cons_of_neg tie, List.filter_cons_of_neg tie, ih inFront inRest front]
  | @no a b as bs out answer rest ih =>
      obtain ⟨-, inRest⟩ := List.cons_subset.mp inFront
      rw [List.filter_cons, List.filter_cons, ih inRest inBack front.tail]
      split <;> rfl

end Merged

namespace MergeSorted

theorem ascending (sorted : MergeSorted told as out) (inItems : as ⊆ items) :
    Ascending less out := by
  induction sorted with
  | @short as isShort =>
      match as, isShort with
      | [], _ => exact .nil
      | [_], _ => exact List.pairwise_singleton ..
  | parts front back merged ihFront ihBack =>
      obtain ⟨inFront, inBack⟩ := List.append_subset.mp inItems
      exact merged.ascending order truth (List.Subset.trans front.perm.subset inFront)
        (List.Subset.trans back.perm.subset inBack) (ihFront inFront) (ihBack inBack)

theorem filter_tied (sorted : MergeSorted told as out) (inItems : as ⊆ items) (isX : x ∈ items) :
    out.filter (tied less x) = as.filter (tied less x) := by
  induction sorted with
  | short _ => rfl
  | parts front back merged ihFront ihBack =>
      obtain ⟨inFront, inBack⟩ := List.append_subset.mp inItems
      rw [merged.filter_tied order truth (List.Subset.trans front.perm.subset inFront)
        (List.Subset.trans back.perm.subset inBack) (front.ascending order truth inFront) isX,
        ihFront inFront, ihBack inBack, List.filter_append]

end MergeSorted

end

end Merging

open Eval Primitives

/-! ## The calls -/

/-- The sessions that a predicate leads to when it is applied to some values, two at a time, for as
long as it returns. -/
inductive Session.AfterCalls (less : Value) (items : List Value) (s : Session) : Session → Prop
  | none : AfterCalls less items s s
  | call {t u : Session} {x y w : Value} :
      AfterCalls less items s t → x ∈ items → y ∈ items → Interp.Applies less [x, y] t (.ok w u) →
        AfterCalls less items s u

/-- What a predicate answers in such a session. -/
def Session.Told (s : Session) (less : Value) (items : List Value) (x y : Value) (answer : Bool) :
    Prop :=
  ∃ t w u, s.AfterCalls less items t ∧ Interp.Applies less [x, y] t (.ok w u) ∧ w.isTrue = answer

theorem Session.AfterCalls.kept {less : Value} {items : List Value} {s t : Session}
    (after : s.AfterCalls less items t) (inOrder : s.workspace.WellFormed) : s.Kept t := by
  induction after with
  | none => exact .refl inOrder
  | call _ _ _ applies ih =>
      obtain ⟨level, ended, -⟩ := applies
      exact ih.trans (Restores.kept_of_ok ih.wellFormed ended)

/-- A step applies a predicate to some values until it returns, with enough levels, or until an
application does not return, which is how the step ends at any such level. -/
inductive Comparing {α : Type} (s : Session) (less : Value) (items : List Value) (R : α → Prop)
    (m : Interp → Eval α) (t : Session) : Prop
  | returns {a : α} {u : Session} (least : Nat) : s.AfterCalls less items u → R a →
      (∀ level ≥ least, m (.ofLevel level) t = .ok a u) → Comparing s less items R m t
  | stops {x y : Value} {u : Session} (least : Nat) : s.AfterCalls less items u → x ∈ items →
      y ∈ items → (∀ w u', ¬Interp.Applies less [x, y] u (.ok w u')) →
        (∀ level ≥ least,
          (m (.ofLevel level) t).FailsLike ((Interp.ofLevel level).apply less [x, y] u)) →
        Comparing s less items R m t

namespace Comparing

variable {α β : Type} {s t : Session} {less : Value} {items as bs : List Value} {R : α → Prop}
  {Q : β → Prop} {m : Interp → Eval α} {x y : Value}

theorem pure {a : α} (after : s.AfterCalls less items t) (related : R a) :
    Comparing s less items R (fun _ => Pure.pure a) t :=
  .returns 0 after related fun _ _ => rfl

theorem mono {R' : α → Prop} (comparing : Comparing s less items R m t)
    (weaker : ∀ a, R a → R' a) : Comparing s less items R' m t := by
  cases comparing with
  | returns least after related ended => exact .returns least after (weaker _ related) ended
  | stops least after isX isY never fails => exact .stops least after isX isY never fails

/-- One step after the other. -/
theorem bind {f : Interp → α → Eval β} (first : Comparing s less items R m t)
    (next : ∀ a u, s.AfterCalls less items u → R a → Comparing s less items Q (fun I => f I a) u) :
    Comparing s less items Q (fun I => m I >>= f I) t := by
  cases first with
  | returns least after related ended =>
      cases next _ _ after related with
      | returns least' after' related' ended' =>
          refine .returns (max least least') after' related' fun level enough => ?_
          rw [bind_of_ok _ (ended level (le_of_max_le_left enough))]
          exact ended' level (le_of_max_le_right enough)
      | stops least' after' isX isY never fails =>
          refine .stops (max least least') after' isX isY never fun level enough => ?_
          rw [bind_of_ok _ (ended level (le_of_max_le_left enough))]
          exact fails level (le_of_max_le_right enough)
  | stops least after isX isY never fails =>
      exact .stops least after isX isY never fun level enough => (fails level enough).bind _

/-- One application of the predicate. -/
theorem call (after : s.AfterCalls less items t) (isX : x ∈ items) (isY : y ∈ items) :
    Comparing s less items (fun w => s.Told less items x y w.isTrue)
      (fun I => I.apply less [x, y]) t := by
  by_cases returns : ∃ w u, Interp.Applies less [x, y] t (.ok w u)
  · obtain ⟨w, u, applies⟩ := returns
    obtain ⟨least, ended⟩ := applies.apply_eq
    exact .returns least (.call after isX isY applies) ⟨t, w, u, after, applies, rfl⟩ ended
  · -- at a level too low for the call it does not finish, and the step fails like that as well
    have never : ∀ w u, ¬Interp.Applies less [x, y] t (.ok w u) :=
      fun w u applies => returns ⟨w, u, applies⟩
    refine .stops 0 after isX isY never fun level _ => ?_
    cases ended : (Interp.ofLevel level).apply less [x, y] t with
    | ok w u => exact (never w u ⟨level, ended, nofun⟩).elim
    | exit flow u => exact .exit flow u
    | crashed u => exact .crashed u
    | unfinished => exact .unfinished

/-! ## Merging and sorting -/

/-- One merging step for each of the values, by the answer to a call. -/
theorem mergeBy {fuel : Nat} (after : s.AfterCalls less items t) (front : as ⊆ items)
    (back : bs ⊆ items) (room : as.length + bs.length ≤ fuel) :
    Comparing s less items (Merged (s.Told less items) as bs)
      (fun I => Primitives.mergeBy I less fuel as bs) t := by
  induction fuel generalizing as bs t with
  | zero =>
      obtain ⟨noFront, noBack⟩ : as.length = 0 ∧ bs.length = 0 := by omega
      obtain rfl := List.eq_nil_of_length_eq_zero noFront
      obtain rfl := List.eq_nil_of_length_eq_zero noBack
      exact pure after (.back [])
  | succ fuel ih =>
      match as, bs with
      | [], bs => exact pure after (.back bs)
      | a :: as, [] =>
          have rest : Merged (s.Told less items) (a :: as) [] (a :: as ++ []) := by
            rw [List.append_nil]
            exact .front (a :: as)
          exact pure after rest
      | a :: as, b :: bs =>
          obtain ⟨isA, inFront⟩ := List.cons_subset.mp front
          obtain ⟨isB, inBack⟩ := List.cons_subset.mp back
          simp only [List.length_cons] at room
          refine bind (call after isB isA) fun w u after told => ?_
          cases answer : w.isTrue with
          | true =>
              rw [answer] at told
              simp only [if_true]
              exact bind (ih after front inBack (by simp only [List.length_cons]; omega))
                fun out u after merged => pure after (.yes told merged)
          | false =>
              rw [answer] at told
              simp only [Bool.false_eq_true, if_false]
              exact bind (ih after inFront back (by simp only [List.length_cons]; omega))
                fun out u after merged => pure after (.no told merged)

/-- The halves are sorted one after the other and merged. -/
theorem sortBy {fuel : Nat} (after : s.AfterCalls less items t) (inItems : as ⊆ items)
    (room : as.length ≤ fuel) :
    Comparing s less items (MergeSorted (s.Told less items) as)
      (fun I => Primitives.sortBy I less fuel as) t := by
  induction fuel generalizing as t with
  | zero => exact pure after (.short (by omega))
  | succ fuel ih =>
      unfold Primitives.sortBy
      by_cases short : as.length ≤ 1
      · simp only [if_pos short]
        exact pure after (.short short)
      · simp only [if_neg short]
        let half := as.length / 2
        have inFront : as.take half ⊆ items := List.Subset.trans (List.take_subset ..) inItems
        have inBack : as.drop half ⊆ items := List.Subset.trans (List.drop_subset ..) inItems
        have frontRoom : (as.take half).length ≤ fuel := by
          rw [List.length_take]
          omega
        have backRoom : (as.drop half).length ≤ fuel := by
          rw [List.length_drop]
          omega
        refine bind (ih after inFront frontRoom) fun left u after front => ?_
        refine bind (ih after inBack backRoom) fun right u after back => ?_
        have mergeRoom : left.length + right.length ≤ as.length := by
          rw [front.perm.length_eq, back.perm.length_eq, ← List.length_append,
            List.take_append_drop]
        refine mono (mergeBy after (List.Subset.trans front.perm.subset inFront)
          (List.Subset.trans back.perm.subset inBack) mergeRoom) fun out merged => ?_
        have sorted := MergeSorted.parts front back merged
        rwa [List.take_append_drop] at sorted

end Comparing

/-! ## Sequences -/

/-- A value is a proper list or a vector of some elements. -/
inductive Store.Sortable (st : Store) : Value → List Value → Prop
  | list {v : Value} {items : List Value} : st.Lists v items → Sortable st v items
  | vector {ref : Nat} {items : Array Value} :
      st.vectors[ref]? = some items → Sortable st (.vector ref) items.toList

/-- A value is a proper list whose pairs are all newer than some store. -/
inductive Store.ListsSince (st st' : Store) : Value → List Value → Prop
  | nil : ListsSince st st' .nil []
  | cons {ref : Nat} {p : Pair} {items : List Value} :
      st.pairs.size ≤ ref → st'.pairs[ref]? = some p → ListsSince st st' p.cdr items →
        ListsSince st st' (.cons ref) (p.car :: items)

theorem Store.ListsSince.lists {st st' : Store} {v : Value} {items : List Value}
    (since : st.ListsSince st' v items) : st'.Lists v items := by
  induction since with
  | nil => exact .nil
  | cons _ there _ ih => exact .cons there ih

theorem Store.ListsSince.mono {st st' st'' : Store} {v : Value} {items : List Value}
    (since : st.ListsSince st' v items) (kept : st'.KeptIn st'') : st.ListsSince st'' v items := by
  induction since with
  | nil => exact .nil
  | cons new there _ ih => exact .cons new (kept _ _ there) ih

/-- The pairs of a list that is made come after all others. -/
theorem Store.listsSince_list (st : Store) (items : List Value) :
    st.ListsSince (st.list items).2 (st.list items).1 items := by
  unfold Store.list
  induction items with
  | nil => exact .nil
  | cons item items ih =>
      have newer : st.pairs.size ≤ (st.listWithTail items .nil).2.pairs.size :=
        (Store.Retains.listWithTail items .nil st).pairs_le
      rw [listWithTail_cons]
      generalize st.listWithTail items .nil = made at ih newer
      obtain ⟨rest, st'⟩ := made
      have there : (st'.cons item rest).2.pairs[st'.pairs.size]? = some ⟨item, rest⟩ :=
        Array.getElem?_push_size
      exact .cons newer there (ih.mono (keptIn_cons st' item rest))

/-- What becomes of sorted values: a new list, or the elements of the vector that they are from.
Nothing else has changed since the last call. -/
inductive Session.Delivers (t : Session) (sorted : List Value) : Value → Value → Session → Prop
  | list {v result : Value} {u : Session} : (∀ ref, v ≠ .vector ref) → t.EnlargedTo u →
      t.store.ListsSince u.store result sorted → Delivers t sorted v result u
  | vector {ref : Nat} {u : Session} :
      u = { t with store := t.store.setItems (.vector ref) sorted.toArray } →
        u.store.vectors[ref]? = some sorted.toArray →
          Delivers t sorted (.vector ref) (.vector ref) u

/-- The predicate to sort by: the second argument, but `<` if there is none or it is a keyword. -/
def Primitives.sortPredicate : List Value → Value
  | [] | .keyword _ :: _ => .symbol "<"
  | f :: _ => f

/-- The end of sorting. -/
def Primitives.deliver (v : Value) (sorted : List Value) : Eval Value :=
  match v with
  | .vector ref => do
    modifyStore (·.setItems (.vector ref) sorted.toArray)
    return .vector ref
  | _ => list sorted

theorem Primitives.sort_eq {v : Value} {rest items : List Value} {s : Session}
    (sortable : s.store.Sortable v items) (I : Interp) :
    sort I (v :: rest) s =
      (sortBy I (sortPredicate rest) items.length items >>= deliver v) s := by
  have least : atLeast "sort" (v :: rest) 1 s = .ok () s := rfl
  refine (bind_of_ok _ least).trans ?_
  cases sortable with
  | list lists =>
      have read : (properList v) s = .ok items s := by
        unfold properList
        rw [lists.list?_eq]
      cases lists with
      | nil => exact bind_of_ok _ read
      | cons there rest => exact bind_of_ok _ read
  | @vector ref items there =>
      have read : sequenceElements (.vector ref) s = .ok items.toList s := by
        show Outcome.ok ((s.store.vectors[ref]?).getD #[]).toList s = _
        rw [there]
        rfl
      exact bind_of_ok _ read

theorem Primitives.primitive?_sort : primitive? "sort" = some sort :=
  primitive?_of_table (show higherOrder ∈ primitiveTables by simp [primitiveTables]) rfl

theorem Primitives.apply_sort (level : Nat) (args : List Value) :
    (Interp.ofLevel (level + 1)).apply (.subr "sort") args = sort (.ofLevel level) args :=
  Interp.apply_subr primitive?_sort level args

/-- Sorted values are delivered. -/
theorem Session.delivers_deliver {v : Value} {items : List Value} {s t : Session}
    (sorted : List Value) (sortable : s.store.Sortable v items) (kept : s.Kept t) :
    ∃ result u, deliver v sorted t = .ok result u ∧ t.Delivers sorted v result u := by
  cases sortable with
  | list lists =>
      have isList : ∀ ref, v ≠ .vector ref := by
        rintro ref rfl
        cases lists
      have made : deliver v sorted t = list sorted t := by
        cases lists <;> rfl
      exact ⟨_, _, made, .list isList (.list t sorted) (Store.listsSince_list t.store sorted)⟩
  | @vector ref items there =>
      obtain ⟨items', there', -⟩ := kept.retains.vectors ref items there
      obtain ⟨inside, -⟩ := Array.getElem?_eq_some_iff.mp there'
      exact ⟨_, _, rfl, .vector rfl (Array.getElem?_setIfInBounds_self_of_lt inside)⟩

/-- A list or a vector is sorted by the second argument, or by `<` if there is none or it is a
keyword.  Either the predicate returns each time, and all elements are delivered, in order and with
ties as they were if its answers are those of a strict weak order.  Or it does not return for some
two of the elements, and then the sorting ends as that call does, in the same session, if it ends at
all. -/
theorem Primitives.sort_course {v : Value} {rest items : List Value} {s : Session}
    (inOrder : s.workspace.WellFormed) (sortable : s.store.Sortable v items) :
    let less := sortPredicate rest
    (∃ sorted t result u, s.AfterCalls less items t ∧
      Interp.Applies (.subr "sort") (v :: rest) s (.ok result u) ∧ t.Delivers sorted v result u ∧
        sorted.Perm items ∧
          ∀ before, TruthOf (s.Told less items) before items → StrictWeakOn before items →
            Ascending before sorted ∧
              ∀ x ∈ items, sorted.filter (tied before x) = items.filter (tied before x)) ∨
    ∃ t x y, s.AfterCalls less items t ∧ x ∈ items ∧ y ∈ items ∧
      (∀ w u, ¬Interp.Applies less [x, y] t (.ok w u)) ∧
        ∀ o, Interp.Applies (.subr "sort") (v :: rest) s o ↔ Interp.Applies less [x, y] t o := by
  intro less
  have apply_eq (level : Nat) : (Interp.ofLevel (level + 1)).apply (.subr "sort") (v :: rest) s =
      (sortBy (.ofLevel level) less items.length items >>= deliver v) s := by
    rw [apply_sort, sort_eq sortable]
  have course : Comparing s less items (MergeSorted (s.Told less items) items)
      (fun I => sortBy I less items.length items) s :=
    .sortBy .none (List.Subset.refl items) (Nat.le_refl _)
  cases course with
  | @returns sorted t least after mergeSorted ended =>
      left
      obtain ⟨result, u, delivered, delivers⟩ :=
        Session.delivers_deliver sorted sortable (after.kept inOrder)
      have applies : Interp.Applies (.subr "sort") (v :: rest) s (.ok result u) := by
        refine ⟨least + 1, ?_, nofun⟩
        rw [apply_eq, bind_of_ok _ (ended least (Nat.le_refl _)), delivered]
      refine ⟨sorted, t, result, u, after, applies, delivers, mergeSorted.perm,
        fun before truth order => ⟨?_, fun x isX => ?_⟩⟩
      · exact mergeSorted.ascending order truth (List.Subset.refl items)
      · exact mergeSorted.filter_tied order truth (List.Subset.refl items) isX
  | @stops x y t least after isX isY never fails =>
      right
      -- sorting takes one level more than the call that ends it
      have same (level : Nat) (enough : level ≥ least) :
          (Interp.ofLevel (level + 1)).apply (.subr "sort") (v :: rest) s =
            (Interp.ofLevel level).apply less [x, y] t := by
        rw [apply_eq]
        exact ((fails level enough).bind _).eq
      refine ⟨t, x, y, after, isX, isY, never, fun o => ⟨fun applies => ?_, fun applies => ?_⟩⟩
      all_goals
        obtain ⟨least', ended⟩ := applies.apply_eq
        obtain ⟨-, -, finished⟩ := applies
      · refine ⟨max least least', ?_, finished⟩
        rw [← same _ (Nat.le_max_left ..)]
        exact ended _ (Nat.le_succ_of_le (Nat.le_max_right ..))
      · refine ⟨max least least' + 1, ?_, finished⟩
        rw [same _ (Nat.le_max_left ..)]
        exact ended _ (Nat.le_max_right ..)

/-- By `>` greater numbers come first. -/
def Value.greaterFirst : Value → Value → Bool
  | .int m, .int n => n < m
  | _, _ => false

theorem Value.strictWeakOn_greaterFirst : StrictWeakOn greaterFirst [.int 1, .int 2] := by
  constructor <;> decide

/-- The list of one and two, after `(fset :more (symbol-function '>))`. -/
def Session.descending : Session where
  store := { pairs := #[⟨.int 2, .nil⟩, ⟨.int 1, .cons 0⟩] }
  functions := .ofList [(":more", .subr ">")]

theorem Session.lists_descending : descending.store.Lists (.cons 1) [.int 1, .int 2] :=
  .cons (p := ⟨.int 1, .cons 0⟩) rfl (.cons (p := ⟨.int 2, .nil⟩) rfl .nil)

/-- One and two, sorted by `>`. -/
theorem Primitives.sort_course_two :
    let items : List Value := [.int 1, .int 2]
    Session.descending.workspace.WellFormed ∧ Session.descending.store.Sortable (.cons 1) items ∧
      ∃ sorted result u,
        Interp.Applies (.subr "sort") [.cons 1, .subr ">"] .descending (.ok result u) ∧
          u.store.Lists result sorted ∧ sorted.Perm items ∧
            Ascending Value.greaterFirst sorted := by
  intro items
  have inOrder : Session.descending.workspace.WellFormed := Workspace.wellFormed_initial
  have sortable : Session.descending.store.Sortable (.cons 1) items :=
    .list Session.lists_descending
  have answers (t : Session) : ∀ x ∈ items, ∀ y ∈ items, Interp.Applies (.subr ">") [x, y] t
      (.ok (.ofBool (Value.greaterFirst x y)) t) := by
    intro x isX y isY
    simp only [items, List.mem_cons, List.not_mem_nil, or_false] at isX isY
    rcases isX with rfl | rfl <;> rcases isY with rfl | rfl <;> exact ⟨1, rfl, nofun⟩
  have truth : TruthOf (Session.descending.Told (.subr ">") items) Value.greaterFirst items := by
    rintro x isX y isY _ ⟨t, w, u, -, applies, rfl⟩
    cases applies.unique (answers t x isX y isY)
    cases Value.greaterFirst x y <;> rfl
  refine ⟨inOrder, sortable, ?_⟩
  rcases @sort_course (.cons 1) [.subr ">"] items _ inOrder sortable with
    ⟨sorted, t, result, u, -, applies, delivers, perm, orders⟩ | ⟨t, x, y, -, isX, isY, never, -⟩
  · obtain ⟨ascending, -⟩ := orders _ truth Value.strictWeakOn_greaterFirst
    cases delivers with
    | list _ _ since => exact ⟨sorted, result, u, applies, since.lists, perm, ascending⟩
  · exact (never _ t (answers t x isX y isY)).elim

/-- A keyword may well be the name of a function, but a list is not sorted by it: here it stands for
`>`, which always answers and puts two first. -/
theorem Primitives.sort_keyword_not_ascending :
    let items : List Value := [.int 1, .int 2]
    Session.descending.store.Lists (.cons 1) items ∧ StrictWeakOn Value.greaterFirst items ∧
      (∀ x ∈ items, ∀ y ∈ items, Interp.Applies (.keyword ":more") [x, y] .descending
        (.ok (.ofBool (Value.greaterFirst x y)) .descending)) ∧
      ∃ result u, u.store.Lists result items ∧ ¬Ascending Value.greaterFirst items ∧
        Interp.Applies (.subr "sort") [.cons 1, .keyword ":more"] .descending (.ok result u) := by
  intro items
  have answers : ∀ x ∈ items, ∀ y ∈ items, Interp.Applies (.keyword ":more") [x, y] .descending
      (.ok (.ofBool (Value.greaterFirst x y)) .descending) := by
    intro x isX y isY
    simp only [items, List.mem_cons, List.not_mem_nil, or_false] at isX isY
    rcases isX with rfl | rfl <;> rcases isY with rfl | rfl <;> exact ⟨2, rfl, nofun⟩
  have notAscending : ¬Ascending Value.greaterFirst items := by
    unfold Ascending
    decide
  let made := Session.descending.store.list items
  let after : Session := { Session.descending with store := made.2 }
  have sorted : sort (.ofLevel 3) [.cons 1, .keyword ":more"] .descending = .ok made.1 after := rfl
  have isSorted : after.store.Lists made.1 items := (Store.lists_list _ items).1
  refine ⟨Session.lists_descending, Value.strictWeakOn_greaterFirst, answers, made.1, after,
    isSorted, notAscending, 4, ?_, nofun⟩
  rw [apply_sort]
  exact sorted

end EditorLisp
