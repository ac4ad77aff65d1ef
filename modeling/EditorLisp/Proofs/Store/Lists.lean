import EditorLisp.Proofs.Load.Loader
import Mathlib.Data.Fintype.Card

/-!
# Lists that stay

A list that is made in the store is read back with its elements, there and in every store
that still has its pairs.  A walk along a list takes no more steps than there are pairs, and that
is enough: every part of a list starts with a pair of its own.  Where pairs are changed, a list that
does not hold them is still the same.
-/

namespace EditorLisp.Store

variable {st st' : Store} {v : Value} {items : List Value}

/-- A value is a proper list of some elements, pair by pair. -/
inductive Lists (st : Store) : Value → List Value → Prop where
  | nil : Lists st .nil []
  | cons {ref : Nat} {p : Pair} {items : List Value} :
      st.pairs[ref]? = some p → Lists st p.cdr items → Lists st (.cons ref) (p.car :: items)

theorem Lists.mono (lists : st.Lists v items) (kept : st.KeptIn st') : st'.Lists v items := by
  induction lists with
  | nil => exact .nil
  | cons there _ ih => exact .cons (kept _ _ there) ih

/-- A walk that is long enough meets all elements. -/
theorem Lists.walk_eq (lists : st.Lists v items) {fuel : Nat} (enough : items.length < fuel) :
    st.walk fuel v [] = (items, .nil) := by
  induction lists generalizing fuel with
  | nil =>
      obtain ⟨fuel, rfl⟩ := Nat.exists_eq_add_of_lt enough
      rfl
  | @cons ref p items there _ ih =>
      cases fuel with
      | zero => exact absurd enough (Nat.not_lt_zero _)
      | succ fuel =>
          rw [walk]
          simp only [there]
          rw [walk_concat, ih (Nat.lt_of_succ_lt_succ enough)]
          rfl

theorem Lists.unique {others : List Value} (first : st.Lists v items)
    (second : st.Lists v others) : items = others := by
  induction first generalizing others with
  | nil =>
      cases second
      rfl
  | cons there _ ih =>
      cases second with
      | cons there' rest =>
          cases there.symm.trans there'
          rw [ih rest]

/-- Each part of a list starts with a pair. -/
theorem Lists.exists_pair (lists : st.Lists v items) {k : Nat} (inside : k < items.length) :
    ∃ ref rest, ref < st.pairs.size ∧ st.Lists (.cons ref) rest ∧ rest.length = k + 1 := by
  induction lists with
  | nil => exact absurd inside (Nat.not_lt_zero k)
  | @cons ref p items there rest ih =>
      rcases Nat.lt_or_eq_of_le (Nat.le_of_lt_succ inside) with shorter | rfl
      · exact ih shorter
      · obtain ⟨bound, -⟩ := Array.getElem?_eq_some_iff.mp there
        exact ⟨ref, _, bound, .cons there rest, rfl⟩

/-- No list is longer than there are pairs. -/
theorem Lists.length_le (lists : st.Lists v items) : items.length ≤ st.pairs.size := by
  choose ref rest bound listed size using
    fun k : Fin items.length => lists.exists_pair k.isLt
  -- a pair starts one list only, so parts of different lengths start with different pairs
  have injective : Function.Injective fun k => (⟨ref k, bound k⟩ : Fin st.pairs.size) := by
    intro i j same
    have sameRef : ref i = ref j := congrArg Fin.val same
    have sameRest : rest i = rest j := (listed i).unique (sameRef ▸ listed j)
    have sizes : i.val + 1 = j.val + 1 := by rw [← size i, ← size j, sameRest]
    exact Fin.ext (Nat.succ.inj sizes)
  simpa using Fintype.card_le_of_injective _ injective

theorem Lists.spine_eq (lists : st.Lists v items) : st.spine v = (items, .nil) :=
  lists.walk_eq (Nat.lt_succ_of_le lists.length_le)

theorem Lists.elements_eq (lists : st.Lists v items) : st.elements v = items :=
  congrArg Prod.fst lists.spine_eq

theorem Lists.list?_eq (lists : st.Lists v items) : st.list? v = some items := by
  unfold list?
  rw [lists.spine_eq]

/-- A list with an element is a pair with that element in front of the others. -/
theorem Lists.uncons {item : Value} (lists : st.Lists v (item :: items)) :
    v.isCons = true ∧ st.car v = item ∧ st.Lists (st.cdr v) items := by
  cases lists with
  | cons there rest =>
      rw [cdr_of_there there]
      exact ⟨rfl, car_of_there there, rest⟩

theorem Lists.isList {item : Value} (lists : st.Lists v (item :: items)) :
    st.IsList v item items := by
  obtain ⟨-, front, tail⟩ := lists.uncons
  cases lists with
  | cons => exact ⟨⟨_, rfl⟩, front, tail.list?_eq⟩

theorem keptIn_cons (st : Store) (car cdr : Value) : st.KeptIn (st.cons car cdr).2 := by
  intro ref p there
  obtain ⟨inside, -⟩ := Array.getElem?_eq_some_iff.mp there
  show (st.pairs.push ⟨car, cdr⟩)[ref]? = some p
  rw [Array.getElem?_push_lt inside, ← there, Array.getElem?_eq_getElem inside]

theorem listWithTail_cons (st : Store) (item : Value) (items : List Value) (tail : Value) :
    st.listWithTail (item :: items) tail =
      (st.listWithTail items tail).2.cons item (st.listWithTail items tail).1 := by
  unfold listWithTail
  rw [List.reverse_cons, List.foldl_append]
  rfl

/-- A list that is made is there, and what was there stays. -/
theorem lists_list (st : Store) (items : List Value) :
    (st.list items).2.Lists (st.list items).1 items ∧ st.KeptIn (st.list items).2 := by
  unfold list
  induction items with
  | nil => exact ⟨.nil, .refl st⟩
  | cons item items ih =>
      obtain ⟨lists, kept⟩ := ih
      rw [listWithTail_cons]
      generalize st.listWithTail items .nil = made at lists kept
      obtain ⟨rest, st'⟩ := made
      have added := keptIn_cons st' item rest
      have there : (st'.cons item rest).2.pairs[st'.pairs.size]? = some ⟨item, rest⟩ :=
        Array.getElem?_push_size
      exact ⟨.cons there (lists.mono added), kept.trans added⟩

/-- A list that was made is read back wherever its pairs are. -/
theorem list?_list (items : List Value) (kept : (st.list items).2.KeptIn st') :
    st'.list? (st.list items).1 = some items :=
  ((lists_list st items).1.mono kept).list?_eq

/-!
## The pairs of a list

A list is its elements and the pairs that hold them.  The pairs of a proper list are all different,
so that one of them can be changed without harm to the others, and a list is what it was wherever
its own pairs are, whatever has become of the rest of the store.
-/

variable {st'' : Store} {w new : Value} {refs others : List Nat} {ref : Nat}

/-- A value is a proper list that is held by some pairs, one for each of its elements. -/
inductive ListsAt (st : Store) : Value → List Nat → List Value → Prop
  | nil : ListsAt st .nil [] []
  | cons {ref : Nat} {p : Pair} {refs : List Nat} {items : List Value} :
      st.pairs[ref]? = some p → ListsAt st p.cdr refs items →
        ListsAt st (.cons ref) (ref :: refs) (p.car :: items)

/-- A proper list is held by some pairs. -/
theorem Lists.exists_listsAt (lists : st.Lists v items) : ∃ refs, st.ListsAt v refs items := by
  induction lists with
  | nil => exact ⟨[], .nil⟩
  | cons there _ ih =>
      obtain ⟨refs, rest⟩ := ih
      exact ⟨_ :: refs, .cons there rest⟩

namespace ListsAt

theorem lists (listed : st.ListsAt v refs items) : st.Lists v items := by
  induction listed with
  | nil => exact .nil
  | cons there _ ih => exact .cons there ih

theorem eq_nil (listed : st.ListsAt v [] items) : v = .nil ∧ items = [] := by
  cases listed
  exact ⟨rfl, rfl⟩

theorem uncons {item : Value} (listed : st.ListsAt v refs (item :: items)) :
    ∃ ref next later, v = .cons ref ∧ refs = ref :: later ∧
      st.pairs[ref]? = some ⟨item, next⟩ ∧ st.ListsAt next later items := by
  cases listed with
  | cons there rest => exact ⟨_, _, _, rfl, rfl, there, rest⟩

theorem length_eq (listed : st.ListsAt v refs items) : refs.length = items.length := by
  induction listed with
  | nil => rfl
  | cons _ _ ih => simp [ih]

/-- A list is held by as many pairs as there are, at most. -/
theorem length_le (listed : st.ListsAt v refs items) : refs.length ≤ st.pairs.size :=
  listed.length_eq ▸ listed.lists.length_le

/-- The pairs of a list, and its elements, are found by following it. -/
theorem unique {items' : List Value} (first : st.ListsAt v refs items)
    (second : st.ListsAt v others items') : refs = others ∧ items = items' := by
  induction first generalizing others items' with
  | nil =>
      cases second
      exact ⟨rfl, rfl⟩
  | cons there _ ih =>
      cases second with
      | cons there' rest =>
          cases there.symm.trans there'
          obtain ⟨rfl, rfl⟩ := ih rest
          exact ⟨rfl, rfl⟩

/-- From each of its pairs on, a list is a list. -/
theorem exists_suffix (listed : st.ListsAt v refs items) (member : ref ∈ refs) :
    ∃ later rest, st.ListsAt (.cons ref) (ref :: later) rest ∧ (ref :: later) <:+ refs := by
  induction listed with
  | nil => cases member
  | @cons ref' p refs items there rest ih =>
      rcases List.mem_cons.mp member with rfl | further
      · exact ⟨refs, _, .cons there rest, List.suffix_rfl⟩
      · obtain ⟨later, rest', found, suffix⟩ := ih further
        exact ⟨later, rest', found, suffix.trans (List.suffix_cons ..)⟩

/-- No pair comes twice in a proper list: it would come again and again. -/
theorem nodup (listed : st.ListsAt v refs items) : refs.Nodup := by
  induction listed with
  | nil => exact List.nodup_nil
  | @cons ref p refs items there rest ih =>
      refine List.nodup_cons.mpr ⟨fun again => ?_, ih⟩
      obtain ⟨later, rest', found, suffix⟩ := rest.exists_suffix again
      obtain ⟨same, -⟩ := (ListsAt.cons there rest).unique found
      have shorter := suffix.length_le
      rw [← same, List.length_cons] at shorter
      omega

/-- The first of the pairs is the value itself. -/
theorem head? (listed : st.ListsAt (.cons ref) refs items) : refs.head? = some ref := by
  cases listed
  rfl

/-- A list ends with its last pair. -/
theorem cdr_getLast (listed : st.ListsAt v refs items) (last : refs.getLast? = some ref) :
    st.cdr (.cons ref) = .nil := by
  induction listed with
  | nil => cases last
  | @cons k p refs items there rest ih =>
      generalize next : p.cdr = tail at rest ih
      cases rest with
      | nil =>
          obtain rfl : k = ref := by simpa using last
          exact (cdr_of_there there).trans next
      | cons _ _ => exact ih (by simpa using last)

theorem lt_size (listed : st.ListsAt v refs items) (member : ref ∈ refs) :
    ref < st.pairs.size := by
  induction listed with
  | nil => cases member
  | cons there _ ih =>
      rcases List.mem_cons.mp member with rfl | further
      · exact (Array.getElem?_eq_some_iff.mp there).1
      · exact ih further

theorem mono (listed : st.ListsAt v refs items) (kept : st.KeptIn st') :
    st'.ListsAt v refs items := by
  induction listed with
  | nil => exact .nil
  | cons there _ ih => exact .cons (kept _ _ there) ih

/-- A list is what it was wherever its pairs are. -/
theorem congr (listed : st.ListsAt v refs items)
    (same : ∀ ref ∈ refs, st'.pairs[ref]? = st.pairs[ref]?) : st'.ListsAt v refs items := by
  induction listed with
  | nil => exact .nil
  | cons there _ ih =>
      obtain ⟨here, later⟩ := List.forall_mem_cons.mp same
      exact .cons (here.trans there) (ih later)

end ListsAt

/-! ## Pairs that are changed -/

theorem getElem?_setCar (st : Store) (ref k : Nat) (new : Value) :
    (st.setCar (.cons ref) new).pairs[k]? =
      if ref = k then st.pairs[k]?.map fun p => { p with car := new } else st.pairs[k]? :=
  Array.getElem?_modify

theorem getElem?_setCdr (st : Store) (ref k : Nat) (new : Value) :
    (st.setCdr (.cons ref) new).pairs[k]? =
      if ref = k then st.pairs[k]?.map fun p => { p with cdr := new } else st.pairs[k]? :=
  Array.getElem?_modify

theorem getElem?_setCar_self {p : Pair} (there : st.pairs[ref]? = some p) (new : Value) :
    (st.setCar (.cons ref) new).pairs[ref]? = some { p with car := new } := by
  rw [getElem?_setCar, if_pos rfl, there]
  rfl

theorem getElem?_setCdr_self {p : Pair} (there : st.pairs[ref]? = some p) (new : Value) :
    (st.setCdr (.cons ref) new).pairs[ref]? = some { p with cdr := new } := by
  rw [getElem?_setCdr, if_pos rfl, there]
  rfl

theorem getElem?_setCar_of_ne (st : Store) {k : Nat} (different : ref ≠ k) (new : Value) :
    (st.setCar (.cons ref) new).pairs[k]? = st.pairs[k]? :=
  (getElem?_setCar ..).trans (if_neg different)

theorem getElem?_setCdr_of_ne (st : Store) {k : Nat} (different : ref ≠ k) (new : Value) :
    (st.setCdr (.cons ref) new).pairs[k]? = st.pairs[k]? :=
  (getElem?_setCdr ..).trans (if_neg different)

namespace ListsAt

/-- A list that does not hold a pair is the same when the pair is linked elsewhere. -/
theorem setCdr (listed : st.ListsAt v refs items) (outside : ref ∉ refs) (new : Value) :
    (st.setCdr (.cons ref) new).ListsAt v refs items :=
  listed.congr fun _ member =>
    getElem?_setCdr_of_ne st (ne_of_mem_of_not_mem member outside).symm new

/-- A list that does not hold a pair is the same when the element of the pair is exchanged. -/
theorem setCar (listed : st.ListsAt v refs items) (outside : ref ∉ refs) (new : Value) :
    (st.setCar (.cons ref) new).ListsAt v refs items :=
  listed.congr fun _ member =>
    getElem?_setCar_of_ne st (ne_of_mem_of_not_mem member outside).symm new

/-- A pair is linked to a list that does not hold it. -/
theorem link {p : Pair} (listed : st.ListsAt v refs items) (there : st.pairs[ref]? = some p)
    (outside : ref ∉ refs) :
    (st.setCdr (.cons ref) v).ListsAt (.cons ref) (ref :: refs) (p.car :: items) := by
  exact .cons (p := { p with cdr := v }) (getElem?_setCdr_self there v) (listed.setCdr outside v)

/-- A list is lengthened by another one that is linked to its last pair. -/
theorem append {items' : List Value} (listed : st.ListsAt v refs items)
    (last : refs.getLast? = some ref) (further : st.ListsAt w others items')
    (apart : refs.Disjoint others) :
    (st.setCdr (.cons ref) w).ListsAt v (refs ++ others) (items ++ items') := by
  have lastIn : ref ∈ refs := List.mem_of_getLast? last
  have further' := further.setCdr (apart lastIn) w
  have different := listed.nodup
  clear apart further
  induction listed with
  | nil => cases last
  | @cons k p refs items there rest ih =>
      obtain ⟨notLater, different⟩ := List.nodup_cons.mp different
      generalize next : p.cdr = tail at rest ih
      cases rest with
      | nil =>
          obtain rfl : k = ref := by simpa using last
          exact .cons (p := { p with cdr := w }) (getElem?_setCdr_self there w) further'
      | cons _ _ =>
          have later := List.mem_of_getLast? (by simpa using last)
          have kept := getElem?_setCdr_of_ne st (ne_of_mem_of_not_mem later notLater) w
          exact .cons (kept.trans there) (next ▸ ih (by simpa using last) later different)

end ListsAt

/-- A list that is made is held by new pairs. -/
theorem exists_listsAt_list (st : Store) (items : List Value) :
    ∃ refs, (st.list items).2.ListsAt (st.list items).1 refs items ∧
      st.KeptIn (st.list items).2 ∧ st.pairs.size ≤ (st.list items).2.pairs.size ∧
        ∀ ref ∈ refs, st.pairs.size ≤ ref := by
  unfold list
  induction items with
  | nil => exact ⟨[], .nil, .refl st, Nat.le_refl _, List.forall_mem_nil _⟩
  | cons item items ih =>
      obtain ⟨refs, listed, kept, larger, fresh⟩ := ih
      rw [listWithTail_cons]
      generalize st.listWithTail items .nil = made at listed kept larger
      obtain ⟨rest, st'⟩ := made
      have added := keptIn_cons st' item rest
      have there : (st'.cons item rest).2.pairs[st'.pairs.size]? = some ⟨item, rest⟩ :=
        Array.getElem?_push_size
      refine ⟨st'.pairs.size :: refs, .cons there (listed.mono added), kept.trans added, ?_,
        List.forall_mem_cons.mpr ⟨larger, fresh⟩⟩
      show st.pairs.size ≤ (st'.pairs.push ⟨item, rest⟩).size
      rw [Array.size_push]
      exact Nat.le_succ_of_le larger

/-- Some pairs were linked in another way, and nothing else was changed. -/
structure RelinkedTo (st : Store) (refs : List Nat) (st' : Store) : Prop where
  car_eq : ∀ ref : Nat, st'.pairs[ref]?.map Pair.car = st.pairs[ref]?.map Pair.car
  elsewhere : ∀ ref ∉ refs, st'.pairs[ref]? = st.pairs[ref]?
  aside : st' = { st with pairs := st'.pairs }

namespace RelinkedTo

theorem refl (st : Store) : st.RelinkedTo [] st := ⟨fun _ => rfl, fun _ _ => rfl, rfl⟩

theorem setCdr (st : Store) (ref : Nat) (new : Value) :
    st.RelinkedTo [ref] (st.setCdr (.cons ref) new) where
  car_eq k := by
    rw [getElem?_setCdr]
    split <;> cases st.pairs[k]? <;> rfl
  elsewhere _ outside :=
    getElem?_setCdr_of_ne st (ne_of_mem_of_not_mem (List.mem_singleton_self ref) outside) new
  aside := rfl

theorem trans (first : st.RelinkedTo refs st') (second : st'.RelinkedTo others st'') :
    st.RelinkedTo (refs ++ others) st'' where
  car_eq ref := (second.car_eq ref).trans (first.car_eq ref)
  elsewhere ref outside := by
    simp only [List.mem_append, not_or] at outside
    exact (second.elsewhere ref outside.2).trans (first.elsewhere ref outside.1)
  aside := by
    rw [second.aside, first.aside]

end RelinkedTo

end EditorLisp.Store
