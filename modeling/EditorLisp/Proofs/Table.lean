import EditorLisp.Table
import Mathlib.Order.RelClasses
import Mathlib.Tactic.Common

/-!
# Look-up in tables

What each operation on a table does to look-up.  None of these needs the entries to be in
order or their keys to be different.  That they are in order, each key once, is a property
of its own, which the operations keep.
-/

namespace EditorLisp.Table

variable {κ α β : Type} [DecidableEq κ]

theorem getList?_isSome_iff (key : κ) (entries : List (κ × α)) :
    (getList? key entries).isSome ↔ key ∈ entries.map Prod.fst := by
  induction entries with
  | nil => simp [getList?]
  | cons entry rest ih =>
      by_cases hit : entry.1 = key
      · simp [getList?, hit]
      · simp [getList?, hit, ih, Ne.symm hit]

theorem contains_eq_isSome (t : Table κ α) (key : κ) : t.contains key = (t.get? key).isSome := rfl

/-- The keys are those that can be looked up. -/
theorem mem_keys_iff (t : Table κ α) (key : κ) : key ∈ t.keys ↔ t.contains key = true :=
  (getList?_isSome_iff key t.entries).symm

theorem contains_iff (t : Table κ α) (key : κ) :
    t.contains key = true ↔ ∃ a, t.get? key = some a :=
  Option.isSome_iff_exists

theorem get?_eq_none_iff (t : Table κ α) (key : κ) : t.get? key = none ↔ t.contains key = false := by
  rw [contains_eq_isSome, Option.isSome_eq_false_iff, Option.isNone_iff_eq_none]

/-- Look-up after a change of one value. -/
@[simp]
theorem get?_modify (t : Table κ α) (key other : κ) (f : α → α) :
    (t.modify key f).get? other =
      if key = other then (t.get? other).map f else t.get? other := by
  obtain ⟨entries⟩ := t
  simp only [get?, modify]
  induction entries with
  | nil => simp [getList?]
  | cons entry rest ih =>
      obtain ⟨k, b⟩ := entry
      rw [List.map_cons]
      by_cases hit : k = key
      · rw [if_pos hit]
        simp only [getList?]
        by_cases here : k = other
        · rw [if_pos here, if_pos here, if_pos (hit.symm.trans here), Option.map_some]
        · rw [if_neg here, if_neg here, ih]
      · rw [if_neg hit]
        simp only [getList?]
        by_cases here : k = other
        · have elsewhere : ¬ key = other := fun same => hit (here.trans same.symm)
          rw [if_pos here, if_pos here, if_neg elsewhere]
        · rw [if_neg here, if_neg here, ih]

/-- Look-up after a change of all values. -/
@[simp]
theorem get?_mapValues (t : Table κ α) (key : κ) (f : α → β) :
    (t.mapValues f).get? key = (t.get? key).map f := by
  obtain ⟨entries⟩ := t
  simp only [get?, mapValues]
  induction entries with
  | nil => rfl
  | cons entry rest ih =>
      rw [List.map_cons]
      simp only [getList?]
      by_cases here : entry.1 = key
      · rw [if_pos here, if_pos here, Option.map_some]
      · rw [if_neg here, if_neg here, ih]

@[simp]
theorem contains_modify (t : Table κ α) (key other : κ) (f : α → α) :
    (t.modify key f).contains other = t.contains other := by
  rw [contains_eq_isSome, contains_eq_isSome, get?_modify]
  split
  · exact Option.isSome_map
  · rfl

section Ordered

variable [LT κ] [DecidableLT κ]

@[simp]
theorem contains_insert (t : Table κ α) (key other : κ) (a : α) :
    (t.insert key a).contains other = (decide (key = other) || t.contains other) := by
  rw [contains_eq_isSome, contains_eq_isSome, get?_insert]
  by_cases here : key = other <;> simp [here]

/-- Look-up after a value was put or removed. -/
@[simp]
theorem get?_set? (t : Table κ α) (key other : κ) (a : Option α) :
    (t.set? key a).get? other = if key = other then a else t.get? other := by
  cases a with
  | none => exact get?_erase ..
  | some a => exact get?_insert ..

/-- Of two entries with one key the later one is found. -/
theorem get?_ofList [BEq κ] [LawfulBEq κ] (entries : List (κ × α)) (key : κ) :
    (ofList entries).get? key = entries.reverse.lookup key := by
  have from_any (t : Table κ α) :
      (entries.foldl (fun t e => t.insert e.1 e.2) t).get? key =
        (entries.reverse.lookup key).or (t.get? key) := by
    induction entries generalizing t with
    | nil => rfl
    | cons e rest ih =>
        obtain ⟨k, a⟩ := e
        rw [List.foldl_cons, ih, get?_insert, List.reverse_cons, List.lookup_append,
          Option.or_assoc]
        congr 1
        by_cases here : k = key
        · subst here
          rw [if_pos rfl, List.lookup_cons_self]
          rfl
        · have elsewhere : (key == k) = false := beq_eq_false_iff_ne.mpr (Ne.symm here)
          rw [if_neg here, List.lookup_cons, elsewhere]
          rfl
  exact (from_any empty).trans Option.or_none

end Ordered

@[simp]
theorem contains_erase (t : Table κ α) (key other : κ) :
    (t.erase key).contains other = (!decide (key = other) && t.contains other) := by
  rw [contains_eq_isSome, contains_eq_isSome, get?_erase]
  by_cases here : key = other <;> simp [here]

/-! ## Order -/

/-- What is found under a key is listed with it. -/
theorem mem_entries_of_get? {t : Table κ α} {key : κ} {a : α} (found : t.get? key = some a) :
    (key, a) ∈ t.entries := by
  obtain ⟨entries⟩ := t
  simp only [get?] at found
  induction entries with
  | nil => cases found
  | cons entry rest ih =>
      obtain ⟨k, b⟩ := entry
      rw [getList?] at found
      split at found
      next here =>
          cases found
          rw [here]
          exact List.mem_cons_self
      next => exact List.mem_cons_of_mem _ (ih found)

section Order

variable [LT κ] [DecidableLT κ]

/-- The keys increase from entry to entry. -/
def Ordered (t : Table κ α) : Prop := t.entries.Pairwise fun e e' => e.1 < e'.1

theorem mem_insertList {key : κ} {a : α} {entries : List (κ × α)} {e : κ × α}
    (member : e ∈ insertList key a entries) : e = (key, a) ∨ e ∈ entries := by
  induction entries with
  | nil => exact .inl (List.mem_singleton.mp member)
  | cons entry rest ih =>
      obtain ⟨k, b⟩ := entry
      rw [insertList] at member
      split at member
      · exact (List.mem_cons.mp member).imp_right (List.mem_cons_of_mem _)
      · split at member
        · exact List.mem_cons.mp member
        · rcases List.mem_cons.mp member with rfl | later
          · exact .inr List.mem_cons_self
          · exact (ih later).imp_right (List.mem_cons_of_mem _)

/-- A new entry goes in front of the first one with a greater key. -/
theorem ordered_insert [IsStrictTotalOrder κ (· < ·)] {t : Table κ α} (ordered : t.Ordered)
    (key : κ) (a : α) : (t.insert key a).Ordered := by
  obtain ⟨entries⟩ := t
  unfold Ordered insert at *
  simp only at ordered ⊢
  induction entries with
  | nil => exact List.pairwise_singleton ..
  | cons entry rest ih =>
      obtain ⟨k, b⟩ := entry
      obtain ⟨first, others⟩ := List.pairwise_cons.mp ordered
      rw [insertList]
      split
      next same =>
          subst same
          exact List.pairwise_cons.mpr ⟨first, others⟩
      next different =>
          split
          next before =>
              refine List.pairwise_cons.mpr ⟨fun e member => ?_, ordered⟩
              rcases List.mem_cons.mp member with rfl | later
              · exact before
              · exact Trans.trans before (first e later)
          next notBefore =>
              have after : k < key :=
                (trichotomous_of (· < ·) k key).resolve_right fun h => h.elim different notBefore
              refine List.pairwise_cons.mpr ⟨fun e member => ?_, ih others⟩
              rcases mem_insertList member with rfl | later
              · exact after
              · exact first e later

omit [DecidableLT κ] in
theorem ordered_erase {t : Table κ α} (ordered : t.Ordered) (key : κ) : (t.erase key).Ordered :=
  List.Pairwise.filter _ ordered

omit [DecidableLT κ] in
theorem ordered_modify {t : Table κ α} (ordered : t.Ordered) (key : κ) (f : α → α) :
    (t.modify key f).Ordered := by
  have same (e : κ × α) : (if e.1 = key then (e.1, f e.2) else e).1 = e.1 := by split <;> rfl
  refine List.pairwise_map.mpr (ordered.imp fun {e e'} before => ?_)
  rwa [same e, same e']

omit [DecidableEq κ] [DecidableLT κ] in
theorem ordered_mapValues {t : Table κ α} (ordered : t.Ordered) (f : α → β) :
    (t.mapValues f).Ordered :=
  List.pairwise_map.mpr ordered

omit [DecidableLT κ] in
/-- What is listed in order is found under its key. -/
theorem get?_of_mem_entries [IsStrictTotalOrder κ (· < ·)] {t : Table κ α} (ordered : t.Ordered)
    {key : κ} {a : α} (listed : (key, a) ∈ t.entries) : t.get? key = some a := by
  obtain ⟨entries⟩ := t
  unfold Ordered at ordered
  simp only [get?] at ordered listed ⊢
  induction entries with
  | nil => cases listed
  | cons entry rest ih =>
      obtain ⟨k, b⟩ := entry
      obtain ⟨first, others⟩ := List.pairwise_cons.mp ordered
      rcases List.mem_cons.mp listed with here | later
      · cases here
        exact if_pos rfl
      · have before : k < key := first _ later
        have different : ¬ k = key := fun same => irrefl_of (· < ·) key (same ▸ before)
        exact (if_neg different).trans (ih others later)

/-- Putting a value where it is already changes nothing. -/
theorem insert_of_get? [IsStrictTotalOrder κ (· < ·)] {t : Table κ α} (ordered : t.Ordered)
    {key : κ} {a : α} (found : t.get? key = some a) : t.insert key a = t := by
  have listed := mem_entries_of_get? found
  obtain ⟨entries⟩ := t
  unfold Ordered at ordered
  simp only [insert, get?, mk.injEq] at ordered listed found ⊢
  induction entries with
  | nil => cases found
  | cons entry rest ih =>
      obtain ⟨k, b⟩ := entry
      obtain ⟨first, others⟩ := List.pairwise_cons.mp ordered
      rw [getList?] at found
      by_cases here : k = key
      · rw [if_pos here, Option.some.injEq] at found
        rw [insertList, if_pos here, here, found]
      · rw [if_neg here] at found
        have later : (key, a) ∈ rest := (List.mem_cons.mp listed).resolve_left fun same =>
          here (congrArg Prod.fst same).symm
        -- The key is further on, so it is not less than the one met first.
        have notBefore : ¬ key < k := asymm_of (· < ·) (first _ later)
        rw [insertList, if_neg here, if_neg notBefore, ih others found later]

end Order

end EditorLisp.Table
