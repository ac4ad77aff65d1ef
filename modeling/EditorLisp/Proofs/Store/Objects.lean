import EditorLisp.Flow
import EditorLisp.Store.Basic

/-!
# Objects stay

Objects that are made and parts that are changed leave the frames, the pairs and the vectors
where they are, and a vector as long as it is; what is made comes after all others of its kind.
So what has the number of an object keeps it.
-/

namespace EditorLisp

/-- Every frame, every pair and every vector of a store is in another one, and the vectors are
as long there. -/
structure Store.Retains (st st' : Store) : Prop where
  frames_le : st.frames.size ≤ st'.frames.size
  pairs_le : st.pairs.size ≤ st'.pairs.size
  vectors : ∀ (ref : Nat) (items : Array Value), st.vectors[ref]? = some items →
    ∃ items', st'.vectors[ref]? = some items' ∧ items'.size = items.size

/-- A change of the store that takes no object away. -/
class Store.KeepsObjects (f : Store → Store) : Prop where
  retains : ∀ st : Store, st.Retains (f st)

namespace Store

variable {st st' st'' : Store}

namespace Retains

theorem refl (st : Store) : st.Retains st :=
  ⟨Nat.le_refl _, Nat.le_refl _, fun _ items there => ⟨items, there, rfl⟩⟩

theorem trans (first : st.Retains st') (second : st'.Retains st'') : st.Retains st'' where
  frames_le := Nat.le_trans first.frames_le second.frames_le
  pairs_le := Nat.le_trans first.pairs_le second.pairs_le
  vectors ref items there := by
    obtain ⟨items', there', size⟩ := first.vectors ref items there
    obtain ⟨items'', there'', size'⟩ := second.vectors ref items' there'
    exact ⟨items'', there'', size'.trans size⟩

/-- Stores with the same vectors. -/
theorem of_le (frames_le : st.frames.size ≤ st'.frames.size)
    (pairs_le : st.pairs.size ≤ st'.pairs.size) (vectors : st'.vectors = st.vectors) :
    st.Retains st' :=
  ⟨frames_le, pairs_le, fun _ items there => ⟨items, vectors ▸ there, rfl⟩⟩

theorem cons (st : Store) (car cdr : Value) : st.Retains (st.cons car cdr).2 :=
  of_le (Nat.le_refl _) (by simp [Store.cons]) rfl

theorem vector (st : Store) (items : Array Value) : st.Retains (st.vector items).2 := by
  refine ⟨Nat.le_refl _, Nat.le_refl _, fun ref others there => ⟨others, ?_, rfl⟩⟩
  obtain ⟨inside, -⟩ := Array.getElem?_eq_some_iff.mp there
  exact (Array.getElem?_push_lt inside).trans (there ▸ (Array.getElem?_eq_getElem inside).symm)

theorem listWithTail (items : List Value) (tail : Value) (st : Store) :
    st.Retains (st.listWithTail items tail).2 := by
  unfold Store.listWithTail
  induction items.reverse generalizing tail st with
  | nil => exact refl st
  | cons item rest ih => exact (cons st item tail).trans (ih _ _)

theorem enter (d : Datum) (st : Store) : st.Retains (st.enter d).2 := by
  induction d generalizing st with
  | cons car cdr first second => exact ((second st).trans (first _)).trans (cons _ _ _)
  | _ => exact of_le (Nat.le_refl _) (Nat.le_refl _) rfl

theorem enterAll (data : List Datum) (st : Store) : st.Retains (st.enterAll data).2 := by
  induction data generalizing st with
  | nil => exact refl st
  | cons d rest ih => exact (enter d st).trans (ih _)

theorem record (flow : Flow) (st : Store) : st.Retains (flow.record st).2 := by
  have listed (data : Value × Store) (kept : st.Retains data.2) :
      st.Retains (data.2.list [.ofName (flow.condition?.getD "nil"), data.1]).2 :=
    kept.trans (listWithTail _ _ _)
  unfold Flow.record
  refine listed _ ?_
  split
  · exact of_le (Nat.le_refl _) (Nat.le_refl _) rfl
  · exact refl st
  · exact listWithTail _ _ st
  · exact listWithTail _ _ st
  · exact listWithTail _ _ st
  · exact refl st

end Retains

/-- A list that is made has no frames. -/
theorem frames_listWithTail (items : List Value) (tail : Value) (st : Store) :
    (st.listWithTail items tail).2.frames = st.frames := by
  unfold listWithTail
  induction items.reverse generalizing tail st with
  | nil => rfl
  | cons item rest ih => exact ih (st.cons item tail).1 (st.cons item tail).2

namespace KeepsObjects

/-! ## Objects that are made -/

/-- Other objects than frames, pairs and vectors may be made and changed. -/
theorem of_same {f : Store → Store} (frames : ∀ st, (f st).frames = st.frames)
    (pairs : ∀ st, (f st).pairs = st.pairs) (vectors : ∀ st, (f st).vectors = st.vectors) :
    KeepsObjects f :=
  ⟨fun st => .of_le (Nat.le_of_eq (congrArg Array.size (frames st)).symm)
    (Nat.le_of_eq (congrArg Array.size (pairs st)).symm) (vectors st)⟩

instance cons (car cdr : Value) : KeepsObjects fun st => (st.cons car cdr).2 :=
  ⟨fun st => .cons st car cdr⟩

instance listWithTail (items : List Value) (tail : Value) :
    KeepsObjects fun st => (st.listWithTail items tail).2 :=
  ⟨.listWithTail items tail⟩

instance list (items : List Value) : KeepsObjects fun st => (st.list items).2 :=
  ⟨.listWithTail items .nil⟩

instance vector (items : Array Value) : KeepsObjects fun st => (st.vector items).2 :=
  ⟨fun st => .vector st items⟩

instance text (s : String) : KeepsObjects fun st => (st.text s).2 :=
  of_same (fun _ => rfl) (fun _ => rfl) fun _ => rfl

instance addClosure (c : Closure) : KeepsObjects fun st => (st.addClosure c).2 :=
  of_same (fun _ => rfl) (fun _ => rfl) fun _ => rfl

instance addKeymap (m : Keymap) : KeepsObjects fun st => (st.addKeymap m).2 :=
  of_same (fun _ => rfl) (fun _ => rfl) fun _ => rfl

instance addLayout (layout : Layout) : KeepsObjects fun st => (st.addLayout layout).2 :=
  of_same (fun _ => rfl) (fun _ => rfl) fun _ => rfl

instance enterAll (data : List Datum) : KeepsObjects fun st => (st.enterAll data).2 :=
  ⟨.enterAll data⟩

instance record (flow : Flow) : KeepsObjects fun st => (flow.record st).2 := ⟨.record flow⟩

instance childFrame (parent : Nat) (vars : Table String Value) :
    KeepsObjects fun st => (st.childFrame parent vars).2 :=
  ⟨fun _ => .of_le (by simp [Store.childFrame]) (Nat.le_refl _) rfl⟩

instance childFrameWith (parent : Nat) (bindings : List (String × Value)) :
    KeepsObjects fun st => (st.childFrameWith parent bindings).2 :=
  childFrame parent (Table.ofList bindings)

/-! ## Parts that are changed -/

instance setCar (pair item : Value) : KeepsObjects fun st => st.setCar pair item where
  retains st := by
    unfold Store.setCar
    split
    · exact .of_le (Nat.le_refl _) (by simp) rfl
    · exact .refl st

instance setCdr (pair item : Value) : KeepsObjects fun st => st.setCdr pair item where
  retains st := by
    unfold Store.setCdr
    split
    · exact .of_le (Nat.le_refl _) (by simp) rfl
    · exact .refl st

instance setItem (vector : Value) (i : Nat) (item : Value) :
    KeepsObjects fun st => st.setItem vector i item where
  retains st := by
    unfold Store.setItem
    split
    next ref =>
      refine ⟨Nat.le_refl _, Nat.le_refl _, fun ref' items there => ?_⟩
      by_cases same : ref = ref'
      · subst same
        refine ⟨items.setIfInBounds i item, ?_, Array.size_setIfInBounds⟩
        rw [Array.getElem?_modify, if_pos rfl, there]
        rfl
      · exact ⟨items, by rw [Array.getElem?_modify, if_neg same, there], rfl⟩
    · exact .refl st

/-- The elements of a vector may be exchanged for as many others as it had at first. -/
theorem retains_setItems {ref : Nat} {items : Array Value} (first : st.Retains st')
    (size : ∀ old, st.vectors[ref]? = some old → items.size = old.size) :
    st.Retains (st'.setItems (.vector ref) items) := by
  refine ⟨first.frames_le, first.pairs_le, fun ref' old there => ?_⟩
  obtain ⟨old', there', size'⟩ := first.vectors ref' old there
  unfold setItems
  by_cases same : ref = ref'
  · subst same
    obtain ⟨inside, -⟩ := Array.getElem?_eq_some_iff.mp there'
    exact ⟨items, Array.getElem?_setIfInBounds_self_of_lt inside, size old there⟩
  · exact ⟨old', (Array.getElem?_setIfInBounds_ne same).trans there', size'⟩

instance reverse (vector : Value) :
    KeepsObjects fun st => st.setItems vector ((st.items? vector).getD #[]).reverse where
  retains st := by
    cases vector with
    | vector ref =>
        refine retains_setItems (.refl st) fun old there => ?_
        rw [items?, Option.getD_some, there, Option.getD_some, Array.size_reverse]
    | _ => exact .refl st

instance map (vector : Value) (f : Value → Value) :
    KeepsObjects fun st => st.setItems vector (((st.items? vector).getD #[]).map f) where
  retains st := by
    cases vector with
    | vector ref =>
        refine retains_setItems (.refl st) fun old there => ?_
        rw [items?, Option.getD_some, there, Option.getD_some, Array.size_map]
    | _ => exact .refl st

instance modifyKeymap (map : Value) (f : Keymap → Keymap) :
    KeepsObjects fun st => st.modifyKeymap map f where
  retains st := by
    unfold Store.modifyKeymap
    split
    · exact .of_le (Nat.le_refl _) (Nat.le_refl _) rfl
    · exact .refl st

instance defineIn (i : Nat) (name : String) (value : Value) :
    KeepsObjects fun st => st.defineIn i name value :=
  ⟨fun _ => .of_le (by simp [Store.defineIn]) (Nat.le_refl _) rfl⟩

/-- One change after another. -/
theorem comp {f g : Store → Store} (last : KeepsObjects g) (first : KeepsObjects f) :
    KeepsObjects fun st => g (f st) :=
  ⟨fun st => (first.retains st).trans (last.retains (f st))⟩

/-- One change for each item of a list. -/
theorem foldl {α : Type} {change : Store → α → Store}
    (one : ∀ a, KeepsObjects fun st => change st a) (items : List α) :
    KeepsObjects fun st => items.foldl change st := by
  refine ⟨fun st => ?_⟩
  induction items generalizing st with
  | nil => exact .refl st
  | cons item rest ih => exact ((one item).retains st).trans (ih (change st item))

end KeepsObjects

end Store

end EditorLisp
