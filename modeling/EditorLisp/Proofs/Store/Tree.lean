import EditorLisp.Proofs.Store.Lists
import EditorLisp.Proofs.Store.Objects
import Mathlib.Data.List.Forall2

/-!
# Values as trees

A value without a circle below it unfolds into a finite tree of atoms, pairs and vectors.  The
tree forgets which parts are shared: a string is its text, a double its bits, and every other
atom is itself.  A value shows at most one tree, and it shows one exactly if every way down
through its parts ends.
-/

namespace EditorLisp

/-! ## Trees -/

/-- The bits of a double; what is not a number and has no sign has none. -/
def Double.bits? : Double → Option UInt64
  | .ofFloat x => some x.toBits
  | .unsignedNaN => none

theorem Double.sameBits_iff {x y : Double} : x.sameBits y = true ↔ x.bits? = y.bits? := by
  cases x <;> cases y <;> simp [sameBits, bits?]

/-- An atom without its place in memory. -/
inductive Atom where
  | text (text : String)
  | double (bits : Option UInt64)
  | other (value : Value)

/-- The atom that a value is, unless it is a pair or a vector. -/
def Value.atom? : Value → Option Atom
  | .cons _ | .vector _ => none
  | .str _ text => some (.text text)
  | .float x => some (.double x.bits?)
  | v => some (.other v)

namespace Value

variable {v : Value}

theorem atom?_eq_text {text : String} (atom : v.atom? = some (.text text)) :
    ∃ id, v = .str id text := by
  cases v <;> simp_all [atom?]

theorem atom?_eq_double {bits : Option UInt64} (atom : v.atom? = some (.double bits)) :
    ∃ x, v = .float x ∧ x.bits? = bits := by
  cases v <;> simp_all [atom?]

theorem atom?_eq_other {w : Value} (atom : v.atom? = some (.other w)) : v = w := by
  cases v <;> simp_all [atom?]

end Value

/-- A finite tree of atoms, pairs and vectors. -/
inductive ValueTree where
  | atom (a : Atom)
  | cons (car cdr : ValueTree)
  | vector (items : List ValueTree)

instance : Nonempty ValueTree := ⟨.vector []⟩

/-- Some steps below a tree, each to the first or the second part of a pair or to an item of a
vector, stands a part of it. -/
inductive ValueTree.PartAt : ValueTree → Nat → ValueTree → Prop where
  | root (t : ValueTree) : PartAt t 0 t
  | car {n : Nat} {a d u : ValueTree} : PartAt a n u → PartAt (.cons a d) (n + 1) u
  | cdr {n : Nat} {a d u : ValueTree} : PartAt d n u → PartAt (.cons a d) (n + 1) u
  | item {n : Nat} {t u : ValueTree} {ts : List ValueTree} :
      t ∈ ts → PartAt t n u → PartAt (.vector ts) (n + 1) u

namespace Store

variable {s s' : Store} {v : Value} {t u : ValueTree}

/-! ## Data that stay -/

/-- Every pair and every vector of one store is in the other one, with the same parts. -/
structure DataKeptIn (s s' : Store) : Prop where
  pairs : s.KeptIn s'
  vectors : ∀ (ref : Nat) (items : Array Value),
    s.vectors[ref]? = some items → s'.vectors[ref]? = some items

namespace DataKeptIn

theorem refl (s : Store) : s.DataKeptIn s := ⟨.refl s, fun _ _ there => there⟩

theorem trans {s'' : Store} (first : s.DataKeptIn s') (second : s'.DataKeptIn s'') :
    s.DataKeptIn s'' :=
  ⟨first.pairs.trans second.pairs,
    fun ref items there => second.vectors ref items (first.vectors ref items there)⟩

theorem cons (s : Store) (car cdr : Value) : s.DataKeptIn (s.cons car cdr).2 :=
  ⟨keptIn_cons s car cdr, fun _ _ there => there⟩

theorem vector (s : Store) (items : Array Value) : s.DataKeptIn (s.vector items).2 := by
  refine ⟨fun _ _ there => there, fun ref others there => ?_⟩
  obtain ⟨inside, -⟩ := Array.getElem?_eq_some_iff.mp there
  show (s.vectors.push items)[ref]? = some others
  rw [Array.getElem?_push_lt inside, ← there, Array.getElem?_eq_getElem inside]

end DataKeptIn

/-- Pairs and vectors were added to a store, and nothing else is different. -/
structure EnlargedTo (s s' : Store) : Prop extends s.DataKeptIn s' where
  aside : s' = { s with pairs := s'.pairs, vectors := s'.vectors }

namespace EnlargedTo

theorem trans {s'' : Store} (first : s.EnlargedTo s') (second : s'.EnlargedTo s'') :
    s.EnlargedTo s'' where
  toDataKeptIn := first.toDataKeptIn.trans second.toDataKeptIn
  aside := by
    rw [second.aside, first.aside]

theorem retains (enlarged : s.EnlargedTo s') : s.Retains s' where
  frames_le := by rw [enlarged.aside]
  pairs_le := by
    by_contra! fewer
    have there := enlarged.pairs _ _ (Array.getElem?_eq_getElem fewer)
    rw [Array.getElem?_eq_none (Nat.le_refl _)] at there
    cases there
  vectors ref items there := ⟨items, enlarged.vectors ref items there, rfl⟩

end EnlargedTo

/-! ## Values that show a tree -/

/-- A value of a store unfolds into a tree, whatever its parts share. -/
inductive Shows (s : Store) : Value → ValueTree → Prop where
  | atom {v : Value} {a : Atom} : v.atom? = some a → Shows s v (.atom a)
  | cons {ref : Nat} {p : Pair} {car cdr : ValueTree} :
      s.pairs[ref]? = some p → Shows s p.car car → Shows s p.cdr cdr →
        Shows s (.cons ref) (.cons car cdr)
  | vector {ref : Nat} {items : Array Value} {trees : List ValueTree} :
      s.vectors[ref]? = some items → items.size = trees.length →
        (∀ (k : Nat) (item : Value) (tree : ValueTree),
          items[k]? = some item → trees[k]? = some tree → Shows s item tree) →
          Shows s (.vector ref) (.vector trees)

/-- Every way down through the parts of a value ends. -/
inductive Acyclic (s : Store) : Value → Prop where
  | atom {v : Value} {a : Atom} : v.atom? = some a → Acyclic s v
  | cons {ref : Nat} {p : Pair} :
      s.pairs[ref]? = some p → Acyclic s p.car → Acyclic s p.cdr → Acyclic s (.cons ref)
  | vector {ref : Nat} {items : Array Value} :
      s.vectors[ref]? = some items → (∀ item ∈ items, Acyclic s item) → Acyclic s (.vector ref)

/-- Two values unfold into one and the same tree. -/
def SameTree (s : Store) (a b : Value) : Prop := ∃ t, s.Shows a t ∧ s.Shows b t

theorem forall₂_iff_getElem? {α β : Type} {R : α → β → Prop} {items : Array α} {others : List β} :
    List.Forall₂ R items.toList others ↔
      items.size = others.length ∧
        ∀ (k : Nat) (a : α) (b : β), items[k]? = some a → others[k]? = some b → R a b := by
  rw [List.forall₂_iff_get]
  constructor
  · rintro ⟨size, all⟩
    refine ⟨size, fun k a b there there' => ?_⟩
    obtain ⟨inside, rfl⟩ := Array.getElem?_eq_some_iff.mp there
    obtain ⟨inside', rfl⟩ := List.getElem?_eq_some_iff.mp there'
    exact all k inside inside'
  · rintro ⟨size, all⟩
    refine ⟨size, fun k inside inside' => all k _ _ ?_ ?_⟩
    · exact Array.getElem?_eq_getElem inside
    · exact List.getElem?_eq_getElem inside'

namespace Shows

theorem vector_of_forall₂ {ref : Nat} {items : Array Value} {trees : List ValueTree}
    (there : s.vectors[ref]? = some items) (all : List.Forall₂ s.Shows items.toList trees) :
    s.Shows (.vector ref) (.vector trees) :=
  .vector there (forall₂_iff_getElem?.mp all).1 (forall₂_iff_getElem?.mp all).2

theorem of_atom {a : Atom} (shown : s.Shows v (.atom a)) : v.atom? = some a := by
  cases shown with
  | atom atom => exact atom

theorem of_cons {a d : ValueTree} (shown : s.Shows v (.cons a d)) :
    ∃ ref p, v = .cons ref ∧ s.pairs[ref]? = some p ∧ s.Shows p.car a ∧ s.Shows p.cdr d := by
  cases shown with
  | cons there car cdr => exact ⟨_, _, rfl, there, car, cdr⟩

/-- A value shows one tree only. -/
theorem unique (first : s.Shows v t) (second : s.Shows v u) : t = u := by
  induction first generalizing u with
  | atom atom =>
      cases second with
      | atom atom' => rw [Option.some.inj (atom.symm.trans atom')]
      | cons _ _ _ => cases atom
      | vector _ _ _ => cases atom
  | cons there _ _ ihCar ihCdr =>
      cases second with
      | atom atom => cases atom
      | cons there' car cdr =>
          cases there.symm.trans there'
          rw [ihCar car, ihCdr cdr]
  | vector there size _ ih =>
      cases second with
      | atom atom => cases atom
      | vector there' size' all =>
          cases there.symm.trans there'
          refine congrArg ValueTree.vector (List.ext_getElem (size.symm.trans size') ?_)
          intro k inside inside'
          have item := Array.getElem?_eq_getElem (size ▸ inside)
          have tree' := List.getElem?_eq_getElem inside'
          exact ih k _ _ item (List.getElem?_eq_getElem inside) (all k _ _ item tree')

/-- A value shows its tree wherever its pairs and vectors are. -/
theorem mono (shown : s.Shows v t) (kept : s.DataKeptIn s') : s'.Shows v t := by
  induction shown with
  | atom atom => exact .atom atom
  | cons there _ _ ihCar ihCdr => exact .cons (kept.pairs _ _ there) ihCar ihCdr
  | vector there size _ ih => exact .vector (kept.vectors _ _ there) size ih

end Shows

/-- The values without circles are those that unfold into a tree. -/
theorem acyclic_iff : s.Acyclic v ↔ ∃ t, s.Shows v t := by
  constructor
  · intro acyclic
    induction acyclic with
    | atom atom => exact ⟨_, .atom atom⟩
    | cons there _ _ ihCar ihCdr =>
        obtain ⟨car, shownCar⟩ := ihCar
        obtain ⟨cdr, shownCdr⟩ := ihCdr
        exact ⟨_, .cons there shownCar shownCdr⟩
    | @vector ref items there _ ih =>
        let tree (item : Value) : ValueTree := Classical.epsilon (s.Shows item)
        refine ⟨.vector (items.toList.map tree), .vector_of_forall₂ there ?_⟩
        rw [List.forall₂_map_right_iff, List.forall₂_same]
        exact fun item member => Classical.epsilon_spec (ih item (Array.mem_toList_iff.mp member))
  · rintro ⟨t, shown⟩
    induction shown with
    | atom atom => exact .atom atom
    | cons there _ _ ihCar ihCdr => exact .cons there ihCar ihCdr
    | vector there size _ ih =>
        refine .vector there fun item member => ?_
        obtain ⟨k, inside, rfl⟩ := Array.mem_iff_getElem.mp member
        exact ih k _ _ (Array.getElem?_eq_getElem inside)
          (List.getElem?_eq_getElem (size ▸ inside))

end Store

end EditorLisp
