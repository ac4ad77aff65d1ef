import EditorLisp.Keymap
import EditorLisp.Proofs.Table

/-!
# Full and sparse keymaps

A full keymap keeps the bindings of single characters below 256 twice, and look-up asks the
dense table for them and nothing else.  The two tables say the same after every change, so
that nobody can tell a full keymap from a sparse one by its bindings: both answer with the
value that a key was bound to last, and with nothing if that was `nil`.  Keymaps that they
fall back on are not asked here.
-/

namespace EditorLisp.Keymap

variable {m m' : Keymap} {key other : String} {slot : Nat}

/-! ## Slots of the dense table -/

theorem denseSlot?_eq_some_iff :
    denseSlot? key = some slot ↔
      ∃ c : Char, key.toList = [c] ∧ c.toNat = slot ∧ slot < denseSize := by
  unfold denseSlot?
  split
  next c single =>
    rw [single]
    constructor
    · intro found
      obtain ⟨small, rfl⟩ := Option.ite_some_none_eq_some.mp found
      exact ⟨c, rfl, rfl, small⟩
    · rintro ⟨c', same, rfl, small⟩
      cases same
      exact if_pos small
  next several =>
    constructor
    · nofun
    · rintro ⟨c, single, -⟩
      exact absurd single (several c)

theorem denseSlot?_lt (found : denseSlot? key = some slot) : slot < denseSize := by
  obtain ⟨-, -, -, small⟩ := denseSlot?_eq_some_iff.mp found
  exact small

/-- Two keys do not share a slot. -/
theorem eq_of_denseSlot? (found : denseSlot? key = some slot)
    (found' : denseSlot? other = some slot) : key = other := by
  obtain ⟨c, single, code, -⟩ := denseSlot?_eq_some_iff.mp found
  obtain ⟨c', single', code', -⟩ := denseSlot?_eq_some_iff.mp found'
  have same : c = c' := Char.toNat_inj.mp (code.trans code'.symm)
  subst same
  exact String.toList_inj.mp (single.trans single'.symm)

/-! ## What a change does to the tables -/

/-- What binding a key to a value leaves there: the value, unless it is `nil`. -/
def bound? (binding : Value) : Option Value := (some binding).filter Value.isTrue

theorem get?_bindings_define (m : Keymap) (key other : String) (binding : Value) :
    (m.define key binding).bindings.get? other =
      if key = other then bound? binding else m.bindings.get? other := by
  show (if binding.isNil then m.bindings.erase key else m.bindings.insert key binding).get? other = _
  unfold bound? Value.isNil
  cases given : binding.isTrue with
  | true =>
      rw [Option.filter_some_pos given]
      exact Table.get?_insert ..
  | false =>
      rw [Option.filter_some_neg given]
      exact Table.get?_erase ..

/-- A dense table has a slot for every character below 256 and the binding that the other
table has for it. -/
structure Faithful (m : Keymap) : Prop where
  size_dense : ∀ {table : Array Value}, m.dense = some table → table.size = denseSize
  dense_eq : ∀ {table : Array Value} {key : String} {slot : Nat}, m.dense = some table →
    denseSlot? key = some slot → (table[slot]?).filter Value.isTrue = m.bindings.get? key

/-- Both tables give one answer, so it does not matter which one is asked. -/
theorem Faithful.lookup?_eq (faithful : m.Faithful) (key : String) :
    m.lookup? key = m.bindings.get? key := by
  unfold lookup?
  split
  next table slot dense found => exact faithful.dense_eq dense found
  next => rfl

theorem faithful_sparse : Faithful {} := ⟨nofun, nofun⟩

theorem faithful_full : Faithful full where
  size_dense dense := by
    cases dense
    exact Array.size_replicate
  dense_eq := by
    intro table key slot dense found
    cases dense
    rw [Array.getElem?_replicate, if_pos (denseSlot?_lt found)]
    rfl

/-- A change is made in both tables. -/
theorem Faithful.define (faithful : m.Faithful) (key : String) (binding : Value) :
    (m.define key binding).Faithful := by
  cases sparse : m.dense with
  | none =>
      have stillSparse : (m.define key binding).dense = none := by
        unfold Keymap.define
        rw [sparse]
        cases denseSlot? key <;> rfl
      constructor <;> simp [stillSparse]
  | some table =>
      have written : (m.define key binding).dense =
          some ((denseSlot? key).elim table (table.setIfInBounds · binding)) := by
        unfold Keymap.define
        rw [sparse]
        cases denseSlot? key <;> rfl
      have size := faithful.size_dense sparse
      constructor
      · intro table' dense
        obtain rfl := Option.some.inj (written.symm.trans dense)
        cases denseSlot? key with
        | none => exact size
        | some slot => exact Array.size_setIfInBounds.trans size
      · intro table' other slot dense found
        obtain rfl := Option.some.inj (written.symm.trans dense)
        have before := faithful.dense_eq sparse found
        rw [get?_bindings_define]
        by_cases same : key = other
        · subst same
          rw [if_pos rfl, found, Option.elim_some,
            Array.getElem?_setIfInBounds_self_of_lt (size ▸ denseSlot?_lt found)]
          rfl
        · rw [if_neg same, ← before]
          cases written' : denseSlot? key with
          | none => rfl
          | some slot' =>
              have elsewhere : slot' ≠ slot := by
                rintro rfl
                exact same (eq_of_denseSlot? written' found)
              rw [Option.elim_some, Array.getElem?_setIfInBounds_ne elsewhere]

/-! ## Sequences of changes -/

/-- Bind keys one after the other. -/
def defineAll (m : Keymap) (changes : List (String × Value)) : Keymap :=
  changes.foldl (fun m change => m.define change.1 change.2) m

theorem Faithful.defineAll (faithful : m.Faithful) (changes : List (String × Value)) :
    (m.defineAll changes).Faithful := by
  induction changes generalizing m with
  | nil => exact faithful
  | cons change rest ih => exact ih (faithful.define change.1 change.2)

/-- What the table that is not dense lists depends on nothing but what it listed before. -/
theorem bindings_defineAll (same : m.bindings = m'.bindings) (changes : List (String × Value)) :
    (m.defineAll changes).bindings = (m'.defineAll changes).bindings := by
  induction changes generalizing m m' with
  | nil => exact same
  | cons change rest ih =>
      refine ih ?_
      unfold define
      simp only [same]

theorem isFull_defineAll (m : Keymap) (changes : List (String × Value)) :
    (m.defineAll changes).isFull = m.isFull := by
  induction changes generalizing m with
  | nil => rfl
  | cons change rest ih =>
      refine (ih (m.define change.1 change.2)).trans ?_
      unfold isFull define
      cases denseSlot? change.1 with
      | none => rfl
      | some slot => exact Option.isSome_map

/-- The last change of a key counts. -/
theorem get?_bindings_defineAll (m : Keymap) (changes : List (String × Value)) (key : String) :
    (m.defineAll changes).bindings.get? key =
      (changes.reverse.lookup key).elim (m.bindings.get? key) bound? := by
  induction changes generalizing m with
  | nil => rfl
  | cons change rest ih =>
      obtain ⟨name, binding⟩ := change
      refine (ih (m.define name binding)).trans ?_
      rw [get?_bindings_define, List.reverse_cons, List.lookup_append]
      cases rest.reverse.lookup key with
      | some later => rfl
      | none =>
          by_cases same : name = key
          · subst same
            rw [if_pos rfl, Option.none_or, List.lookup_cons_self]
            rfl
          · have other : (key == name) = false := beq_eq_false_iff_ne.mpr (Ne.symm same)
            rw [if_neg same, Option.none_or, List.lookup_cons, other]
            rfl

/-! ## A full keymap and a sparse one -/

/-- Two keymaps that nobody can tell apart by their own bindings. -/
structure Alike (m m' : Keymap) : Prop where
  /-- Look-up of any key has the same answer. -/
  lookup?_eq : ∀ key, m.lookup? key = m'.lookup? key
  /-- The same bindings are listed in the same order. -/
  entries_eq : m.bindings.entries = m'.bindings.entries
  /-- The number of bindings is the same. -/
  size_eq : m.bindings.size = m'.bindings.size
  /-- Both are empty or neither is. -/
  isEmpty_eq : m.bindings.isEmpty = m'.bindings.isEmpty

/-- After the same changes a full and a sparse keymap are alike, and look-up in them answers
with the last binding of a key: the first one from its dense table where the key has a slot,
the second one always from the other table.  The keys are any texts, among them the empty
one, those of several characters and those of characters that have no slot. -/
theorem alike_full_sparse (changes : List (String × Value)) :
    (full.defineAll changes).isFull = true ∧ (defineAll {} changes).isFull = false ∧
      (full.defineAll changes).Alike (defineAll {} changes) ∧
        ∀ key, (defineAll {} changes).lookup? key = (changes.reverse.lookup key).bind bound? := by
  have dense := faithful_full.defineAll changes
  have sparse := faithful_sparse.defineAll changes
  have empty : full.bindings = ({} : Keymap).bindings := rfl
  have same : (full.defineAll changes).bindings = (defineAll {} changes).bindings :=
    bindings_defineAll empty changes
  refine ⟨isFull_defineAll .., isFull_defineAll .., ⟨?_, ?_, ?_, ?_⟩, ?_⟩
  · intro key
    rw [dense.lookup?_eq, sparse.lookup?_eq, same]
  · rw [same]
  · rw [same]
  · rw [same]
  · intro key
    rw [sparse.lookup?_eq, get?_bindings_defineAll]
    cases changes.reverse.lookup key <;> rfl

/-- A key of one character with a slot, one without, and one that was unbound again. -/
example :
    let m := full.defineAll [("a", .t), ("é", .t), ("λ", .t), ("a", .nil)]
    (m.lookup? "a").isNone ∧ (m.lookup? "é").isSome ∧ (m.lookup? "λ").isSome := by
  decide +kernel

end EditorLisp.Keymap
