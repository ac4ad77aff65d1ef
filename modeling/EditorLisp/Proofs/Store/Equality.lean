import EditorLisp.Proofs.Store.Tree
import EditorLisp.Store.Basic

/-!
# Equalities

Three equalities, each wider than the one before: identity, identity with doubles compared by
their bits, and structural equality.  Structural equality looks a bounded number of levels deep
and takes what lies deeper for different, unless it has met one and the same object before.  At
every depth it is an equivalence all the same, also on values with circles: where one of two
comparisons is cut short by an object in common, the other one looks at that very object, as
deep as the first would have, and decides for both.

On values without circles structural equality is equality of the trees that they unfold into, as
far down as it looks.
-/

namespace EditorLisp

/-! ## Identity -/

namespace Value

variable {a b : Value}

theorem eq_of_same (same : a.same b = true) : a = b := by
  unfold Value.same at same
  split at same <;> simp_all

theorem same_comm (a b : Value) : a.same b = b.same a := by
  rw [Bool.eq_iff_iff]
  constructor
  all_goals
    intro same
    cases Value.eq_of_same same
    exact same

theorem same_iff : a.same b = true ↔ a = b ∧ ∀ x, a ≠ .float x := by
  refine ⟨fun same => ⟨Value.eq_of_same same, ?_⟩, ?_⟩
  · rintro x rfl
    cases same
  · rintro ⟨rfl, ordinary⟩
    cases a with
    | float x => exact absurd rfl (ordinary x)
    | _ => simp [Value.same]

/-- Identity with doubles compared by their bits. -/
theorem sameNumber_iff :
    a.sameNumber b = true ↔
      a = b ∨ ∃ x y, a = .float x ∧ b = .float y ∧ x.bits? = y.bits? := by
  constructor
  · intro same
    unfold sameNumber at same
    split at same
    next x y => exact .inr ⟨x, y, rfl, rfl, Double.sameBits_iff.mp same⟩
    next => exact .inl (eq_of_same same)
  · rintro (rfl | ⟨x, y, rfl, rfl, bits⟩)
    · cases a with
      | float x => exact x.sameBits_self
      | _ => simp [sameNumber, Value.same]
    · exact Double.sameBits_iff.mpr bits

theorem sameNumber_of_same (same : a.same b = true) : a.sameNumber b = true :=
  sameNumber_iff.mpr (.inl (eq_of_same same))

theorem equivalence_sameNumber : Equivalence fun a b : Value => a.sameNumber b = true where
  refl a := sameNumber_iff.mpr (.inl rfl)
  symm same := by
    rcases sameNumber_iff.mp same with rfl | ⟨x, y, rfl, rfl, bits⟩
    · exact sameNumber_iff.mpr (.inl rfl)
    · exact sameNumber_iff.mpr (.inr ⟨y, x, rfl, rfl, bits.symm⟩)
  trans first second := by
    rcases sameNumber_iff.mp first with rfl | ⟨x, y, rfl, rfl, bits⟩
    · exact second
    · rcases sameNumber_iff.mp second with rfl | ⟨y', z, float, rfl, bits'⟩
      · exact first
      · cases float
        exact sameNumber_iff.mpr (.inr ⟨x, z, rfl, rfl, bits.trans bits'⟩)

end Value

namespace Store

variable {s : Store} {fuel : Nat} {a b c : Value}

/-! ## One level of structural equality -/

/-- The items of the vector with a number. -/
def itemsAt (s : Store) (ref : Nat) : List Value := (s.vectors[ref]?.getD #[]).toList

/-- The ways in which two values are found equal at one level, if `equal` tells what parts count
as equal. -/
inductive EqualVia (s : Store) (equal : Value → Value → Prop) : Value → Value → Prop where
  | refl (v : Value) : EqualVia s equal v v
  | double {x y : Double} : x.bits? = y.bits? → EqualVia s equal (.float x) (.float y)
  | text (i j : Nat) (text : String) : EqualVia s equal (.str i text) (.str j text)
  | cons {i j : Nat} :
      equal (s.car (.cons i)) (s.car (.cons j)) → equal (s.cdr (.cons i)) (s.cdr (.cons j)) →
        EqualVia s equal (.cons i) (.cons j)
  | vector {i j : Nat} :
      List.Forall₂ equal (s.itemsAt i) (s.itemsAt j) → EqualVia s equal (.vector i) (.vector j)

theorem forall₂_trans {R : Value → Value → Prop} (trans : ∀ a b c, R a b → R b c → R a c)
    {as bs cs : List Value} (first : List.Forall₂ R as bs) (second : List.Forall₂ R bs cs) :
    List.Forall₂ R as cs := by
  induction first generalizing cs with
  | nil => exact second
  | cons head _ ih =>
      cases second with
      | cons head' tail' => exact .cons (trans _ _ _ head head') (ih tail')

theorem allEqual_iff {eq : Value → Value → Bool} {as bs : List Value} :
    (as.length == bs.length && allEqual eq as bs) = true ↔
      List.Forall₂ (fun a b => eq a b = true) as bs := by
  induction as generalizing bs with
  | nil => cases bs <;> simp [allEqual]
  | cons a as ih =>
      cases bs with
      | nil => simp
      | cons b bs =>
          rw [List.forall₂_cons, ← ih, allEqual]
          simp only [List.length_cons, Bool.and_eq_true, beq_iff_eq, Nat.add_right_cancel_iff]
          tauto

/-- All that one level of structural equality does. -/
theorem equalFor_succ_iff :
    s.equalFor (fuel + 1) a b = true ↔ s.EqualVia (fun a b => s.equalFor fuel a b = true) a b := by
  constructor
  · intro equal
    unfold equalFor at equal
    split at equal
    next => exact .double (Double.sameBits_iff.mp equal)
    next =>
      cases beq_iff_eq.mp equal
      exact .text ..
    next =>
      simp only [Bool.or_eq_true, Bool.and_eq_true, beq_iff_eq] at equal
      rcases equal with rfl | ⟨car, cdr⟩
      · exact .refl _
      · exact .cons car cdr
    next =>
      rw [Bool.or_eq_true, beq_iff_eq] at equal
      rcases equal with rfl | items
      · exact .refl _
      · exact .vector (allEqual_iff.mp items)
    next =>
      cases Value.eq_of_same equal
      exact .refl _
  · rintro (_ | bits | _ | ⟨car, cdr⟩ | items)
    · cases a with
      | float x => exact x.sameBits_self
      | _ => simp [equalFor, Value.same]
    · exact Double.sameBits_iff.mpr bits
    · simp [equalFor]
    · simp only [equalFor, Bool.or_eq_true, Bool.and_eq_true]
      exact .inr ⟨car, cdr⟩
    · simp only [equalFor, Bool.or_eq_true]
      exact .inr (allEqual_iff.mpr items)

/-! ## Equivalence at every depth -/

theorem equalFor_refl (s : Store) (fuel : Nat) (a : Value) : s.equalFor (fuel + 1) a a = true :=
  equalFor_succ_iff.mpr (.refl a)

theorem equalFor_symm (equal : s.equalFor fuel a b = true) : s.equalFor fuel b a = true := by
  induction fuel generalizing a b with
  | zero => cases equal
  | succ fuel ih =>
      rw [equalFor_succ_iff] at equal ⊢
      cases equal with
      | refl => exact .refl _
      | double bits => exact .double bits.symm
      | text i j text => exact .text j i text
      | cons car cdr => exact .cons (ih car) (ih cdr)
      | vector items => exact .vector (items.flip.imp fun _ _ => ih)

/-- Where one comparison is cut short by an object in common, the other one decides. -/
theorem equalFor_trans (first : s.equalFor fuel a b = true) (second : s.equalFor fuel b c = true) :
    s.equalFor fuel a c = true := by
  induction fuel generalizing a b c with
  | zero => cases first
  | succ fuel ih =>
      rw [equalFor_succ_iff] at first second ⊢
      cases first with
      | refl => exact second
      | double bits =>
          cases second with
          | refl => exact .double bits
          | double bits' => exact .double (bits.trans bits')
      | text i j text =>
          cases second with
          | refl => exact .text i j text
          | text _ k _ => exact .text i k text
      | cons car cdr =>
          cases second with
          | refl => exact .cons car cdr
          | cons car' cdr' => exact .cons (ih car car') (ih cdr cdr')
      | vector items =>
          cases second with
          | refl => exact .vector items
          | vector items' =>
              refine .vector (forall₂_trans ?_ items items')
              exact fun _ _ _ => ih

theorem equal_of_sameNumber (same : a.sameNumber b = true) : s.equal a b = true := by
  refine equalFor_succ_iff.mpr ?_
  rcases Value.sameNumber_iff.mp same with rfl | ⟨x, y, rfl, rfl, bits⟩
  · exact .refl a
  · exact .double bits

/-- In every store, whatever values share and whether there are circles among them: identical
values are the same number or object, and these are structurally equal.  The latter two are
equivalences, although structural equality gives up at a fixed depth. -/
theorem equivalences (s : Store) :
    (∀ a b : Value, a.same b = true → a.sameNumber b = true) ∧
      (∀ a b : Value, a.sameNumber b = true → s.equal a b = true) ∧
      (Equivalence fun a b : Value => a.sameNumber b = true) ∧
      Equivalence fun a b : Value => s.equal a b = true :=
  ⟨fun _ _ => Value.sameNumber_of_same, fun _ _ => equal_of_sameNumber,
    Value.equivalence_sameNumber,
    { refl := s.equalFor_refl equalityDepth, symm := equalFor_symm, trans := equalFor_trans }⟩

/-! ## Equality of trees -/

/-- So many steps lead down through two values at once, each to corresponding parts of two pairs or
two vectors that are not one and the same object. -/
inductive Apart (s : Store) : Nat → Value → Value → Prop where
  | zero (a b : Value) : Apart s 0 a b
  | car {n i j : Nat} {p q : Pair} : i ≠ j → s.pairs[i]? = some p → s.pairs[j]? = some q →
      Apart s n p.car q.car → Apart s (n + 1) (.cons i) (.cons j)
  | cdr {n i j : Nat} {p q : Pair} : i ≠ j → s.pairs[i]? = some p → s.pairs[j]? = some q →
      Apart s n p.cdr q.cdr → Apart s (n + 1) (.cons i) (.cons j)
  | item {n i j k : Nat} {as bs : Array Value} {a b : Value} : i ≠ j →
      s.vectors[i]? = some as → s.vectors[j]? = some bs → as[k]? = some a → bs[k]? = some b →
        Apart s n a b → Apart s (n + 1) (.vector i) (.vector j)

theorem not_apart_self (n : Nat) (a : Value) : ¬s.Apart (n + 1) a a := by
  intro apart
  cases apart with
  | car different _ _ _ => exact different rfl
  | cdr different _ _ _ => exact different rfl
  | item different _ _ _ _ _ => exact different rfl

/-- Steps through two values are steps through the tree of either. -/
theorem Apart.partAt {n : Nat} {t : ValueTree} (apart : s.Apart n a b) (shown : s.Shows a t) :
    ∃ u, t.PartAt n u := by
  induction apart generalizing t with
  | zero a b => exact ⟨t, .root t⟩
  | car _ there _ _ ih =>
      cases shown with
      | atom atom => cases atom
      | cons there' car _ =>
          cases there.symm.trans there'
          obtain ⟨u, part⟩ := ih car
          exact ⟨u, .car part⟩
  | cdr _ there _ _ ih =>
      cases shown with
      | atom atom => cases atom
      | cons there' _ cdr =>
          cases there.symm.trans there'
          obtain ⟨u, part⟩ := ih cdr
          exact ⟨u, .cdr part⟩
  | @item _ _ _ k _ _ _ _ _ there _ item _ _ ih =>
      cases shown with
      | atom atom => cases atom
      | @vector _ _ trees there' size all =>
          cases there.symm.trans there'
          obtain ⟨inside, -⟩ := Array.getElem?_eq_some_iff.mp item
          have inside : k < trees.length := size ▸ inside
          obtain ⟨u, part⟩ := ih (all k _ _ item (List.getElem?_eq_getElem inside))
          exact ⟨u, .item (List.getElem_mem inside) part⟩

theorem equalVia_atom {x y : Atom} {equal : Value → Value → Prop} (first : a.atom? = some x)
    (second : b.atom? = some y) : s.EqualVia equal a b ↔ x = y := by
  constructor
  · intro via
    cases via with
    | refl => exact Option.some.inj (first.symm.trans second)
    | double bits =>
        cases first
        cases second
        rw [bits]
    | text =>
        cases first
        cases second
        rfl
    | cons => cases first
    | vector => cases first
  · rintro rfl
    cases x with
    | text text =>
        obtain ⟨i, rfl⟩ := Value.atom?_eq_text first
        obtain ⟨j, rfl⟩ := Value.atom?_eq_text second
        exact .text i j text
    | double bits =>
        obtain ⟨x, rfl, bits⟩ := Value.atom?_eq_double first
        obtain ⟨y, rfl, bits'⟩ := Value.atom?_eq_double second
        exact .double (bits.trans bits'.symm)
    | other v =>
        rw [Value.atom?_eq_other first, Value.atom?_eq_other second]
        exact .refl v

/-- Two pairs are apart if they are not one and the same and their parts are apart. -/
theorem apart_cons_iff {n i j : Nat} {p q : Pair} (thereP : s.pairs[i]? = some p)
    (thereQ : s.pairs[j]? = some q) :
    s.Apart (n + 1) (.cons i) (.cons j) ↔
      i ≠ j ∧ (s.Apart n p.car q.car ∨ s.Apart n p.cdr q.cdr) := by
  constructor
  · intro apart
    cases apart with
    | car different there there' apart =>
        cases there.symm.trans thereP
        cases there'.symm.trans thereQ
        exact ⟨different, .inl apart⟩
    | cdr different there there' apart =>
        cases there.symm.trans thereP
        cases there'.symm.trans thereQ
        exact ⟨different, .inr apart⟩
  · rintro ⟨different, apart | apart⟩
    · exact .car different thereP thereQ apart
    · exact .cdr different thereP thereQ apart

/-- Two vectors are apart if they are not one and the same and two items with one index are
apart. -/
theorem apart_vector_iff {n i j : Nat} {as bs : Array Value} (thereA : s.vectors[i]? = some as)
    (thereB : s.vectors[j]? = some bs) :
    s.Apart (n + 1) (.vector i) (.vector j) ↔
      i ≠ j ∧ ∃ (k : Nat) (a b : Value), as[k]? = some a ∧ bs[k]? = some b ∧ s.Apart n a b := by
  constructor
  · intro apart
    cases apart with
    | item different there there' item item' apart =>
        cases there.symm.trans thereA
        cases there'.symm.trans thereB
        exact ⟨different, _, _, _, item, item', apart⟩
  · rintro ⟨different, k, a, b, item, item', apart⟩
    exact .item different thereA thereB item item' apart

theorem equalVia_cons_iff {i j : Nat} {equal : Value → Value → Prop} (different : i ≠ j) :
    s.EqualVia equal (.cons i) (.cons j) ↔
      equal (s.car (.cons i)) (s.car (.cons j)) ∧ equal (s.cdr (.cons i)) (s.cdr (.cons j)) := by
  constructor
  · rintro (_ | _ | _ | ⟨car, cdr⟩)
    · exact absurd rfl different
    · exact ⟨car, cdr⟩
  · exact fun ⟨car, cdr⟩ => .cons car cdr

theorem equalVia_vector_iff {i j : Nat} {equal : Value → Value → Prop} (different : i ≠ j) :
    s.EqualVia equal (.vector i) (.vector j) ↔
      List.Forall₂ equal (s.itemsAt i) (s.itemsAt j) := by
  constructor
  · rintro (_ | _ | _ | _ | items)
    · exact absurd rfl different
    · exact items
  · exact .vector

/-- Items are compared as far down as their trees, if the comparison of any two items is. -/
theorem forall₂_equal_iff {n : Nat} {equal : Value → Value → Prop} {as bs : Array Value}
    {ts us : List ValueTree} (first : List.Forall₂ s.Shows as.toList ts)
    (second : List.Forall₂ s.Shows bs.toList us)
    (iff : ∀ {a b : Value} {t u : ValueTree}, s.Shows a t → s.Shows b u →
      (equal a b ↔ t = u ∧ ¬s.Apart n a b)) :
    List.Forall₂ equal as.toList bs.toList ↔
      ts = us ∧ ¬∃ (k : Nat) (a b : Value), as[k]? = some a ∧ bs[k]? = some b ∧ s.Apart n a b := by
  simp only [← Array.getElem?_toList]
  generalize as.toList = as at *
  generalize bs.toList = bs at *
  induction first generalizing bs us with
  | nil => cases second <;> simp
  | @cons a t as ts shown _ ih =>
      cases second with
      | nil => simp
      | @cons b u bs us shown' rest' =>
          rw [List.forall₂_cons, iff shown shown', ih bs rest', List.cons.injEq]
          constructor
          · rintro ⟨⟨same, close⟩, sames, closes⟩
            refine ⟨⟨same, sames⟩, ?_⟩
            rintro ⟨_ | k, x, y, item, item', apart⟩
            · cases item
              cases item'
              exact close apart
            · exact closes ⟨k, x, y, item, item', apart⟩
          · rintro ⟨⟨same, sames⟩, closes⟩
            refine ⟨⟨same, fun apart => closes ⟨0, a, b, rfl, rfl, apart⟩⟩, sames, ?_⟩
            rintro ⟨k, x, y, item, item', apart⟩
            exact closes ⟨k + 1, x, y, item, item', apart⟩

/-- As many levels deep as it looks, structural equality is equality of trees, and it fails if it
would have to look deeper. -/
theorem equalFor_iff {t u : ValueTree} (first : s.Shows a t) (second : s.Shows b u) :
    s.equalFor fuel a b = true ↔ t = u ∧ ¬s.Apart fuel a b := by
  induction fuel generalizing a b t u with
  | zero =>
      constructor
      · exact nofun
      · rintro ⟨-, close⟩
        exact absurd (.zero a b) close
  | succ fuel ih =>
      rw [equalFor_succ_iff]
      -- an object and itself are equal at once, and never apart
      by_cases same : a = b
      · subst same
        exact ⟨fun _ => ⟨first.unique second, not_apart_self fuel a⟩, fun _ => .refl a⟩
      · cases first with
        | atom atom =>
            cases second with
            | atom atom' =>
                rw [equalVia_atom atom atom', ValueTree.atom.injEq]
                refine ⟨fun same => ⟨same, fun apart => ?_⟩, And.left⟩
                cases apart <;> cases atom
            | cons => exact ⟨fun via => (by cases via <;> cases atom), nofun⟩
            | vector => exact ⟨fun via => (by cases via <;> cases atom), nofun⟩
        | @cons i p _ _ there car cdr =>
            cases second with
            | atom atom => exact ⟨fun via => (by cases via <;> cases atom), nofun⟩
            | @cons j q _ _ there' car' cdr' =>
                have different : i ≠ j := fun eq => same (congrArg Value.cons eq)
                rw [equalVia_cons_iff different, apart_cons_iff there there',
                  car_of_there there, car_of_there there', cdr_of_there there,
                  cdr_of_there there', ih car car', ih cdr cdr', ValueTree.cons.injEq]
                tauto
            | vector => exact ⟨nofun, nofun⟩
        | @vector i as _ there size all =>
            cases second with
            | atom atom => exact ⟨fun via => (by cases via <;> cases atom), nofun⟩
            | cons => exact ⟨nofun, nofun⟩
            | @vector j bs _ there' size' all' =>
                have different : i ≠ j := fun eq => same (congrArg Value.vector eq)
                rw [equalVia_vector_iff different, apart_vector_iff there there', itemsAt,
                  itemsAt, there, there', ValueTree.vector.injEq, Option.getD_some,
                  Option.getD_some, and_iff_right different,
                  forall₂_equal_iff (forall₂_iff_getElem?.mpr ⟨size, all⟩)
                    (forall₂_iff_getElem?.mpr ⟨size', all'⟩) ih]

/-- On values without circles, structural equality is equality of the trees that they unfold
into, unless the comparison has to go below its depth without having met an object that both
share.  Two values with one tree are therefore equal whenever no part of the tree stands deeper
than that. -/
theorem equal_iff_sameTree (acyclicA : s.Acyclic a) (acyclicB : s.Acyclic b) :
    (s.equal a b = true ↔ s.SameTree a b ∧ ¬s.Apart (equalityDepth + 1) a b) ∧
      ∀ t, s.Shows a t → s.Shows b t →
        (∀ n u, t.PartAt n u → n ≤ equalityDepth) → s.equal a b = true := by
  obtain ⟨t, first⟩ := acyclic_iff.mp acyclicA
  obtain ⟨u, second⟩ := acyclic_iff.mp acyclicB
  refine ⟨?_, fun t first second shallow => ?_⟩
  · refine (equalFor_iff first second).trans (and_congr_left' ⟨?_, ?_⟩)
    · rintro rfl
      exact ⟨t, first, second⟩
    · rintro ⟨t', first', second'⟩
      rw [first.unique first', second.unique second']
  · refine (equalFor_iff first second).mpr ⟨rfl, fun apart => ?_⟩
    obtain ⟨u, part⟩ := apart.partAt first
    exact absurd (shallow _ u part) (Nat.not_succ_le_self _)

/-- Two vectors, each of one list of one string, without an object in common. -/
def twoCopies : Store where
  pairs := #[⟨.str 0 "ab", .nil⟩, ⟨.str 1 "ab", .nil⟩]
  vectors := #[#[.cons 0], #[.cons 1]]

theorem acyclic_twoCopies : twoCopies.Acyclic (.vector 0) ∧ twoCopies.Acyclic (.vector 1) := by
  refine ⟨.vector rfl fun item member => ?_, .vector rfl fun item member => ?_⟩
  all_goals
    cases List.mem_singleton.mp (Array.mem_toList_iff.mpr member)
    exact .cons rfl (.atom rfl) (.atom rfl)

/-- Two values that are equal, and therefore one tree. -/
theorem equal_twoCopies :
    twoCopies.equal (.vector 0) (.vector 1) = true ∧
      twoCopies.SameTree (.vector 0) (.vector 1) := by
  have equal : twoCopies.equal (.vector 0) (.vector 1) = true := by decide +kernel
  have iff := (equal_iff_sameTree acyclic_twoCopies.1 acyclic_twoCopies.2).1
  exact ⟨equal, (iff.mp equal).1⟩

/-- Two lists of one empty list, two of two empty lists and so on, none of which share a pair
with the other one of their length. -/
def twins (n : Nat) : Store where
  pairs := .ofFn fun k : Fin (2 * n) => ⟨.nil, if k.val < 2 then .nil else .cons (k.val - 2)⟩

/-- The list of so many empty lists, as a tree. -/
def nilsTree : Nat → ValueTree
  | 0 => .atom (.other .nil)
  | n + 1 => .cons (.atom (.other .nil)) (nilsTree n)

section Twins

variable {n m r : Nat}

theorem twins_pair {k : Nat} (inside : k < 2 * n) :
    (twins n).pairs[k]? = some ⟨.nil, if k < 2 then .nil else .cons (k - 2)⟩ := by
  simp [twins, inside]

theorem shows_twin (inside : m < n) (side : r < 2) :
    (twins n).Shows (.cons (2 * m + r)) (nilsTree (m + 1)) := by
  induction m with
  | zero =>
      have there := twins_pair (n := n) (k := 2 * 0 + r) (by omega)
      rw [if_pos (by omega)] at there
      exact .cons there (.atom rfl) (.atom rfl)
  | succ m ih =>
      have there := twins_pair (n := n) (k := 2 * (m + 1) + r) (by omega)
      rw [if_neg (by omega), show 2 * (m + 1) + r - 2 = 2 * m + r by omega] at there
      exact .cons there (.atom rfl) (ih (by omega))

/-- Twins have no pair in common. -/
theorem apart_twins (inside : m < n) :
    (twins n).Apart (m + 1) (.cons (2 * m)) (.cons (2 * m + 1)) := by
  induction m with
  | zero => exact .cdr nofun (twins_pair (by omega)) (twins_pair (by omega)) (.zero _ _)
  | succ m ih =>
      have there := twins_pair (n := n) (k := 2 * (m + 1)) (by omega)
      have there' := twins_pair (n := n) (k := 2 * (m + 1) + 1) (by omega)
      rw [if_neg (by omega), show 2 * (m + 1) - 2 = 2 * m by omega] at there
      rw [if_neg (by omega), show 2 * (m + 1) + 1 - 2 = 2 * m + 1 by omega] at there'
      exact .cdr (by omega) there there' (ih (by omega))

end Twins

/-- Two lists of 4097 empty lists each show one tree and are different for structural
equality. -/
theorem not_equal_longTwins :
    (twins 4097).Acyclic (.cons 8192) ∧ (twins 4097).Acyclic (.cons 8193) ∧
      (twins 4097).SameTree (.cons 8192) (.cons 8193) ∧
      (twins 4097).equal (.cons 8192) (.cons 8193) = false := by
  have first := shows_twin (n := 4097) (m := 4096) (r := 0) (by omega) (by omega)
  have second := shows_twin (n := 4097) (m := 4096) (r := 1) (by omega) (by omega)
  refine ⟨acyclic_iff.mpr ⟨_, first⟩, acyclic_iff.mpr ⟨_, second⟩, ⟨_, first, second⟩, ?_⟩
  rw [← Bool.not_eq_true]
  intro equal
  have close := ((equalFor_iff first second).mp equal).2
  exact close (apart_twins (show 4096 < 4097 by omega))

end Store

end EditorLisp
