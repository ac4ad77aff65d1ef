import EditorLisp.Proofs.Levels
import EditorLisp.Proofs.Load.Require
import EditorLisp.Proofs.Store.Tree

/-!
# Vectors in quoted data

A quoted datum is a tree in which vectors are written as lists that start with a mark.  Its value
is the tree with the vectors built, as far down as quoted data are searched: a vector that stands
deeper than that stays a list.  Depth is counted in steps to the parts of pairs and to the items
of vectors, so an element of a list stands deeper than the elements before it.
-/

namespace EditorLisp

open Forms

/-! ## Written and built trees -/

namespace ValueTree

variable {n k : Nat} {t a d : ValueTree} {ts : List ValueTree}

mutual

/-- A tree with every vector written as a list of the mark and the items. -/
def written : ValueTree → ValueTree
  | .atom a => .atom a
  | .cons a d => .cons a.written d.written
  | .vector ts => .cons (.atom (.other (.symbol vectorMark))) (writtenItems ts)

/-- The items of a vector written as a list. -/
def writtenItems : List ValueTree → ValueTree
  | [] => .atom (.other .nil)
  | t :: ts => .cons t.written (writtenItems ts)

end

/-- A tree with the vectors built that stand less than some number of steps down, and the other
ones written. -/
def built : Nat → ValueTree → ValueTree
  | 0, t => t.written
  | _ + 1, .atom a => .atom a
  | n + 1, .cons a d => .cons (built n a) (built n d)
  | n + 1, .vector ts => .vector (ts.map (built n))

/-- No part of a tree is the symbol that marks written vectors. -/
def Unmarked (t : ValueTree) : Prop :=
  ∀ (n : Nat) (v : Value), t.PartAt n (.atom (.other v)) → v.isNamed vectorMark = false

/-- All vectors in a tree stand less than some number of steps down. -/
def VectorsWithin (t : ValueTree) (n : Nat) : Prop :=
  ∀ (k : Nat) (ts : List ValueTree), t.PartAt k (.vector ts) → k < n

namespace Unmarked

theorem car (unmarked : (cons a d).Unmarked) : a.Unmarked :=
  fun n v part => unmarked (n + 1) v (.car part)

theorem cdr (unmarked : (cons a d).Unmarked) : d.Unmarked :=
  fun n v part => unmarked (n + 1) v (.cdr part)

theorem item (unmarked : (vector ts).Unmarked) (member : t ∈ ts) : t.Unmarked :=
  fun n v part => unmarked (n + 1) v (.item member part)

end Unmarked

theorem vectorsWithin_cons_iff :
    (cons a d).VectorsWithin (n + 1) ↔ a.VectorsWithin n ∧ d.VectorsWithin n := by
  constructor
  · intro within
    exact ⟨fun k ts part => Nat.lt_of_succ_lt_succ (within _ ts (.car part)),
      fun k ts part => Nat.lt_of_succ_lt_succ (within _ ts (.cdr part))⟩
  · rintro ⟨car, cdr⟩ k ts part
    cases part with
    | car part => exact Nat.succ_lt_succ (car _ ts part)
    | cdr part => exact Nat.succ_lt_succ (cdr _ ts part)

theorem vectorsWithin_vector_iff :
    (vector ts).VectorsWithin (n + 1) ↔ ∀ t ∈ ts, t.VectorsWithin n := by
  constructor
  · intro within t member k us part
    exact Nat.lt_of_succ_lt_succ (within _ us (.item member part))
  · intro all k us part
    cases part with
    | root => exact Nat.succ_pos n
    | item member part => exact Nat.succ_lt_succ (all _ member _ us part)

mutual

/-- What is written holds no vectors. -/
theorem not_partAt_written {k : Nat} {ts : List ValueTree} (t : ValueTree) :
    ¬t.written.PartAt k (.vector ts) := by
  intro part
  cases t with
  | atom a =>
      rw [written] at part
      cases part
  | cons a d =>
      rw [written] at part
      cases part with
      | car part => exact not_partAt_written a part
      | cdr part => exact not_partAt_written d part
  | vector us =>
      rw [written] at part
      cases part with
      | car part => cases part
      | cdr part => exact not_partAt_writtenItems us part

theorem not_partAt_writtenItems {k : Nat} {ts : List ValueTree} (us : List ValueTree) :
    ¬(writtenItems us).PartAt k (.vector ts) := by
  intro part
  cases us with
  | nil =>
      rw [writtenItems] at part
      cases part
  | cons u us =>
      rw [writtenItems] at part
      cases part with
      | car part => exact not_partAt_written u part
      | cdr part => exact not_partAt_writtenItems us part

end

/-- A tree without vectors is written as it is. -/
theorem written_eq_self {t : ValueTree} (none : ∀ k ts, ¬t.PartAt k (.vector ts)) :
    t.written = t := by
  match t with
  | .atom a => rw [written]
  | .cons a d =>
      rw [written, written_eq_self fun k ts part => none _ ts (.car part),
        written_eq_self fun k ts part => none _ ts (.cdr part)]
  | .vector ts => exact absurd (.root _) (none 0 ts)

theorem written_eq_iff : t.written = t ↔ t.VectorsWithin 0 := by
  constructor
  · intro same k ts part
    rw [← same] at part
    exact absurd part (not_partAt_written t)
  · exact fun none => written_eq_self fun k ts part => Nat.not_lt_zero k (none k ts part)

/-- As far as it is built, a tree is what it was if it holds no vectors further down. -/
theorem built_eq_iff : t.built n = t ↔ t.VectorsWithin n := by
  induction n generalizing t with
  | zero => exact written_eq_iff
  | succ n ih =>
      cases t with
      | atom a =>
          refine ⟨fun _ k ts part => ?_, fun _ => rfl⟩
          cases part
      | cons a d => rw [built, cons.injEq, ih, ih, vectorsWithin_cons_iff]
      | vector ts =>
          have same : ts.map (built n) = ts ↔ ∀ t ∈ ts, t.built n = t := by
            simpa using List.map_inj_left (f := built n) (g := id) (l := ts)
          rw [built, vector.injEq, vectorsWithin_vector_iff, same]
          exact forall₂_congr fun t _ => ih

/-- Where no vectors are near enough to be built, all of them stay written. -/
theorem built_eq_written (far : ∀ k ts, t.PartAt k (.vector ts) → n ≤ k) :
    t.built n = t.written := by
  induction n generalizing t with
  | zero => rfl
  | succ n ih =>
      cases t with
      | atom a => rw [built, written]
      | cons a d =>
          rw [built, written, ih fun k ts part => Nat.le_of_succ_le_succ (far _ ts (.car part)),
            ih fun k ts part => Nat.le_of_succ_le_succ (far _ ts (.cdr part))]
      | vector ts => exact absurd (far 0 ts (.root _)) (Nat.not_succ_le_zero n)

end ValueTree

namespace Store

variable {s s' : Store} {v : Value} {t : ValueTree} {items : List Value} {n : Nat}

/-! ## Data that show a written tree -/

namespace Shows

theorem of_written_atom {a : Atom} (shown : s.Shows v (ValueTree.written (.atom a))) :
    v.atom? = some a := by
  rw [ValueTree.written] at shown
  exact shown.of_atom

theorem of_written_cons {a d : ValueTree} (shown : s.Shows v (ValueTree.written (.cons a d))) :
    ∃ ref p, v = .cons ref ∧ s.pairs[ref]? = some p ∧ s.Shows p.car a.written ∧
      s.Shows p.cdr d.written := by
  rw [ValueTree.written] at shown
  exact shown.of_cons

/-- The written items of a vector are a list. -/
theorem of_writtenItems {ts : List ValueTree} (shown : s.Shows v (.writtenItems ts)) :
    ∃ items, s.Lists v items ∧ List.Forall₂ (fun v t => s.Shows v t.written) items ts := by
  induction ts generalizing v with
  | nil =>
      rw [ValueTree.writtenItems] at shown
      cases Value.atom?_eq_other shown.of_atom
      exact ⟨[], .nil, .nil⟩
  | cons t ts ih =>
      rw [ValueTree.writtenItems] at shown
      obtain ⟨ref, p, rfl, there, first, rest⟩ := shown.of_cons
      obtain ⟨items, lists, all⟩ := ih rest
      exact ⟨p.car :: items, .cons there lists, .cons first all⟩

theorem of_written_vector {ts : List ValueTree}
    (shown : s.Shows v (ValueTree.written (.vector ts))) :
    ∃ ref p items, v = .cons ref ∧ s.pairs[ref]? = some p ∧ p.car.isNamed vectorMark = true ∧
      s.Lists p.cdr items ∧ List.Forall₂ (fun v t => s.Shows v t.written) items ts := by
  rw [ValueTree.written] at shown
  obtain ⟨ref, p, rfl, there, mark, rest⟩ := shown.of_cons
  obtain ⟨items, lists, all⟩ := rest.of_writtenItems
  refine ⟨ref, p, items, rfl, there, ?_, lists, all⟩
  rw [Value.atom?_eq_other mark.of_atom]
  exact beq_self_eq_true _

/-- Only a value that shows an atom with some name has that name. -/
theorem not_isNamed {name : String} (shown : s.Shows v t.written)
    (free : ∀ w, t = .atom (.other w) → w.isNamed name = false) : v.isNamed name = false := by
  cases t with
  | atom a =>
      cases a with
      | text text =>
          obtain ⟨id, rfl⟩ := Value.atom?_eq_text shown.of_written_atom
          rfl
      | double bits =>
          obtain ⟨x, rfl, -⟩ := Value.atom?_eq_double shown.of_written_atom
          rfl
      | other w =>
          rw [Value.atom?_eq_other shown.of_written_atom]
          exact free w rfl
  | cons a d =>
      obtain ⟨ref, p, rfl, -⟩ := shown.of_written_cons
      rfl
  | vector ts =>
      obtain ⟨ref, p, items, rfl, -⟩ := shown.of_written_vector
      rfl

end Shows

/-! ## Looking for vectors -/

/-- A vector that stands near enough is found. -/
theorem holdsLiteral_of_partAt {s : Store} {k : Nat} {ts : List ValueTree}
    (shown : s.Shows v t.written) (part : t.PartAt k (.vector ts)) (near : k < n) :
    holdsLiteral s n v = true := by
  induction n generalizing v t k with
  | zero => exact absurd near (Nat.not_lt_zero k)
  | succ n ih =>
      cases t with
      | atom a => cases part
      | cons a d =>
          obtain ⟨ref, p, rfl, there, car, cdr⟩ := shown.of_written_cons
          rw [holdsLiteral, car_of_there there, cdr_of_there there]
          cases part with
          | car part => simp [ih car part (Nat.lt_of_succ_lt_succ near)]
          | cdr part => simp [ih cdr part (Nat.lt_of_succ_lt_succ near)]
      | vector us =>
          obtain ⟨ref, p, items, rfl, there, named, -⟩ := shown.of_written_vector
          rw [holdsLiteral, car_of_there there, named, Bool.true_or, Bool.true_or]

/-! ## Building vectors -/

/-- A mapped list shows the mapped trees, if what is mapped shows a mapped tree and leaves all
data there. -/
theorem shows_mapStore {f : Value → Store → Value × Store} {g h : ValueTree → ValueTree}
    {ts : List ValueTree}
    (maps : ∀ t ∈ ts, ∀ (v : Value) (s : Store), s.Shows v (g t) →
      s.DataKeptIn (f v s).2 ∧ (f v s).2.Shows (f v s).1 (h t))
    (all : List.Forall₂ (fun v t => s.Shows v (g t)) items ts) :
    s.DataKeptIn (mapStore f items s).2 ∧
      List.Forall₂ (mapStore f items s).2.Shows (mapStore f items s).1 (ts.map h) := by
  induction ts generalizing items s with
  | nil =>
      cases all
      exact ⟨.refl s, .nil⟩
  | cons t ts ih =>
      cases all with
      | @cons v _ items _ shown rest =>
          obtain ⟨kept, made⟩ := maps t List.mem_cons_self v s shown
          obtain ⟨keptRest, madeRest⟩ :=
            ih (fun t member => maps t (List.mem_cons_of_mem _ member))
              (rest.imp fun v t shown => shown.mono kept)
          exact ⟨kept.trans keptRest, .cons (made.mono keptRest) madeRest⟩

theorem build_atom {a : Atom} (atom : v.atom? = some a) (n : Nat) (s : Store) :
    build n v s = (v, s) := by
  cases n with
  | zero => rfl
  | succ n =>
      cases v with
      | cons => cases atom
      | vector => cases atom
      | _ => rfl

theorem build_cons {ref : Nat} {p : Pair} (there : s.pairs[ref]? = some p)
    (stays : (build n p.car s).2.pairs[ref]? = some p) (plain : p.car.isNamed vectorMark = false) :
    build (n + 1) (.cons ref) s =
      (build n p.cdr (build n p.car s).2).2.cons (build n p.car s).1
        (build n p.cdr (build n p.car s).2).1 := by
  rw [build, car_of_there there, plain]
  simp only [Bool.false_eq_true, if_false, cdr_of_there stays]

theorem build_vector {ref : Nat} {p : Pair} (there : s.pairs[ref]? = some p)
    (named : p.car.isNamed vectorMark = true) (lists : s.Lists p.cdr items) :
    build (n + 1) (.cons ref) s =
      (mapStore (build n) items s).2.vector (mapStore (build n) items s).1.toArray := by
  rw [build, car_of_there there, cdr_of_there there, if_pos named, lists.elements_eq]

/-- The copy of a written tree shows the tree with its vectors built. -/
theorem shows_build (shown : s.Shows v t.written) (unmarked : t.Unmarked) :
    s.DataKeptIn (build n v s).2 ∧ (build n v s).2.Shows (build n v s).1 (t.built n) := by
  induction n generalizing v t s with
  | zero => exact ⟨.refl s, shown⟩
  | succ n ih =>
      cases t with
      | atom a =>
          rw [build_atom shown.of_written_atom]
          exact ⟨.refl s, shown⟩
      | cons a d =>
          obtain ⟨ref, p, rfl, there, car, cdr⟩ := shown.of_written_cons
          obtain ⟨keptCar, madeCar⟩ := ih car unmarked.car
          -- the second part is looked up after the first one has been copied
          obtain ⟨keptCdr, madeCdr⟩ := ih (cdr.mono keptCar) unmarked.cdr
          rw [build_cons there (keptCar.pairs _ _ there)
            (car.not_isNamed fun w same => unmarked.car 0 w (same ▸ .root _))]
          have added := DataKeptIn.cons (build n p.cdr (build n p.car s).2).2
            (build n p.car s).1 (build n p.cdr (build n p.car s).2).1
          refine ⟨(keptCar.trans keptCdr).trans added, .cons Array.getElem?_push_size ?_ ?_⟩
          · exact (madeCar.mono keptCdr).mono added
          · exact madeCdr.mono added
      | vector ts =>
          obtain ⟨ref, p, items, rfl, there, named, lists, all⟩ := shown.of_written_vector
          obtain ⟨kept, made⟩ := shows_mapStore
            (fun t member v s shown => ih shown (unmarked.item member)) all
          rw [build_vector there named lists]
          have added := DataKeptIn.vector (mapStore (build n) items s).2
            (mapStore (build n) items s).1.toArray
          refine ⟨kept.trans added, .vector_of_forall₂ Array.getElem?_push_size ?_⟩
          exact made.imp fun v t shown => shown.mono added

end Store

/-! ## Evaluating quoted data -/

namespace Eval

variable {s : Session} {form datum v : Value} {t : ValueTree}

/-- The value of a written tree is the tree with its vectors built, as far down as quoted data
are searched. -/
theorem shows_literal (shown : s.store.Shows v t.written) (unmarked : t.Unmarked) :
    ∃ v' store, literal v s = .ok v' { s with store } ∧ s.store.DataKeptIn store ∧
      store.Shows v' (t.built (literalDepth + 1)) := by
  cases found : holdsLiteral s.store (literalDepth + 1) v with
  | true =>
      obtain ⟨kept, made⟩ := Store.shows_build (n := literalDepth + 1) shown unmarked
      exact ⟨_, _, (literal_eq v s).trans (if_pos found), kept, made⟩
  | false =>
      have same := (literal_eq v s).trans (if_neg (Bool.not_eq_true _ ▸ found))
      refine ⟨v, s.store, same, .refl _, ?_⟩
      rw [ValueTree.built_eq_written fun k ts part => Nat.le_of_not_lt fun near => ?_]
      · exact shown
      · rw [Store.holdsLiteral_of_partAt shown part near] at found
        cases found

/-- The value of `(quote DATUM)`. -/
theorem ends_quote (isQuote : s.store.IsList form (.symbol "quote") [datum])
    (shown : s.store.Shows datum t.written) (unmarked : t.Unmarked)
    (unbound : s.functions.contains "quote" = false) (room : s.depth < s.config.maxDepth)
    (frame : Nat) :
    ∃ v store, Interp.Ends form frame s (.ok v { s with store }) ∧ s.store.DataKeptIn store ∧
      store.Shows v (t.built (literalDepth + 1)) := by
  obtain ⟨v, store, value, kept, made⟩ :=
    shows_literal (s := { s with depth := s.depth + 1 }) shown unmarked
  refine ⟨v, store, ?_, kept, made⟩
  suffices ended : (Interp.ofLevel 1).eval form frame s = .ok v { s with store } from
    .of_eq ended nofun
  exact (evalForm_special room isQuote unbound rfl).trans (ensuring_of_ok _ value)

/-- Let a tree be written as data with every vector as a marked list.  The value of its quotation
is the tree with the vectors built that stand at most so many steps down as quoted data are
searched, and the others still written; it is the tree itself if and only if no vector stands
deeper.  All data that were there stay as they are. -/
theorem ends_quote_written (isQuote : s.store.IsList form (.symbol "quote") [datum])
    (shown : s.store.Shows datum t.written) (unmarked : t.Unmarked)
    (unbound : s.functions.contains "quote" = false) (room : s.depth < s.config.maxDepth)
    (frame : Nat) :
    ∃ v store, Interp.Ends form frame s (.ok v { s with store }) ∧ s.store.DataKeptIn store ∧
      store.Shows v (t.built (literalDepth + 1)) ∧
        (store.Shows v t ↔
          ∀ (k : Nat) (ts : List ValueTree), t.PartAt k (.vector ts) → k ≤ literalDepth) := by
  obtain ⟨v, store, ended, kept, made⟩ := ends_quote isQuote shown unmarked unbound room frame
  refine ⟨v, store, ended, kept, made, ?_⟩
  have within : (store.Shows v t ↔ t.VectorsWithin (literalDepth + 1)) := by
    rw [← ValueTree.built_eq_iff]
    constructor
    · exact fun whole => made.unique whole
    · exact fun same => same ▸ made
  exact within.trans (forall₂_congr fun k ts => imp_congr_right fun _ => Nat.lt_succ_iff)

end Eval

/-! ## A vector behind empty lists -/

/-- So many empty lists before an empty vector, which is the tail of the list. -/
def ValueTree.behind : Nat → ValueTree
  | 0 => .vector []
  | n + 1 => .cons (.atom (.other .nil)) (behind n)

/-- The pairs of a quotation of an empty vector behind so many empty lists. -/
def Store.behind (n : Nat) : Store where
  pairs := .ofFn fun k : Fin (n + 3) =>
    if k.val = n + 2 then ⟨.symbol "quote", .cons (n + 1)⟩
    else if k.val = n + 1 then ⟨.cons n, .nil⟩
    else if k.val = 0 then ⟨.symbol vectorMark, .nil⟩
    else ⟨.nil, .cons (k.val - 1)⟩

section Behind

variable {n m k : Nat}

theorem ValueTree.unmarked_behind (n : Nat) : (ValueTree.behind n).Unmarked := by
  induction n with
  | zero =>
      rintro k v (_ | _ | _ | ⟨member, -⟩)
      cases member
  | succ n ih =>
      rintro k v (_ | part | part)
      · cases part
        rfl
      · exact ih _ v part

theorem ValueTree.partAt_behind (n : Nat) : (ValueTree.behind n).PartAt n (.vector []) := by
  induction n with
  | zero => exact .root _
  | succ n ih => exact .cdr ih

theorem ValueTree.eq_of_partAt_behind {ts : List ValueTree}
    (part : (ValueTree.behind n).PartAt k (.vector ts)) : k = n := by
  induction n generalizing k with
  | zero =>
      cases part with
      | root => rfl
      | item member => cases member
  | succ n ih =>
      cases part with
      | car part => cases part
      | cdr part => rw [ih part]

theorem Store.behind_pair (inside : k < n + 3) : (Store.behind n).pairs[k]? =
    some (if k = n + 2 then ⟨.symbol "quote", .cons (n + 1)⟩
      else if k = n + 1 then ⟨.cons n, .nil⟩
      else if k = 0 then ⟨.symbol vectorMark, .nil⟩
      else ⟨.nil, .cons (k - 1)⟩) := by
  simp [Store.behind, inside]

theorem Store.shows_behind (inside : m ≤ n) :
    (Store.behind n).Shows (.cons m) (ValueTree.behind m).written := by
  induction m with
  | zero =>
      have there := behind_pair (n := n) (k := 0) (by omega)
      rw [if_neg (by omega), if_neg (by omega), if_pos rfl] at there
      rw [ValueTree.behind, ValueTree.written, ValueTree.writtenItems]
      exact .cons there (.atom rfl) (.atom rfl)
  | succ m ih =>
      have there := behind_pair (n := n) (k := m + 1) (by omega)
      rw [if_neg (by omega), if_neg (by omega), if_neg (by omega)] at there
      rw [ValueTree.behind, ValueTree.written, ValueTree.written]
      exact .cons there (.atom rfl) (ih (by omega))

theorem Store.isList_behind (n : Nat) :
    (Store.behind n).IsList (.cons (n + 2)) (.symbol "quote") [.cons n] := by
  have first := behind_pair (n := n) (k := n + 2) (by omega)
  have second := behind_pair (n := n) (k := n + 1) (by omega)
  rw [if_pos rfl] at first
  rw [if_neg (by omega), if_pos rfl] at second
  exact isList_of_there first second

end Behind

/-- The quotation of a vector behind two empty lists. -/
theorem ends_quote_behind_two :
    let s : Session := { store := .behind 2 }
    s.store.IsList (.cons 4) (.symbol "quote") [.cons 2] ∧
      s.store.Shows (.cons 2) (ValueTree.behind 2).written ∧ (ValueTree.behind 2).Unmarked ∧
        s.functions.contains "quote" = false ∧ s.depth < s.config.maxDepth ∧
          ∃ v store, Interp.Ends (.cons 4) 0 s (.ok v { s with store }) ∧
            store.Shows v (.behind 2) := by
  intro s
  have isQuote : s.store.IsList (.cons 4) (.symbol "quote") [.cons 2] := Store.isList_behind 2
  have shown : s.store.Shows (.cons 2) (ValueTree.behind 2).written :=
    Store.shows_behind (Nat.le_refl 2)
  have room : s.depth < s.config.maxDepth := by decide
  obtain ⟨v, store, ended, -, -, whole⟩ :=
    Eval.ends_quote_written isQuote shown (ValueTree.unmarked_behind 2) rfl room 0
  refine ⟨isQuote, shown, ValueTree.unmarked_behind 2, rfl, room, v, store, ended, ?_⟩
  refine whole.mpr fun k ts part => ?_
  rw [ValueTree.eq_of_partAt_behind part]
  decide

/-- The quotation of a vector behind more empty lists than quoted data are searched for is not
that vector behind those lists. -/
theorem not_ends_quote_behind :
    let s : Session := { store := .behind 513 }
    s.store.IsList (.cons 515) (.symbol "quote") [.cons 513] ∧
      s.store.Shows (.cons 513) (ValueTree.behind 513).written ∧
        (ValueTree.behind 513).Unmarked ∧
          ∃ v store, Interp.Ends (.cons 515) 0 s (.ok v { s with store }) ∧
            ¬store.Shows v (.behind 513) := by
  intro s
  have isQuote : s.store.IsList (.cons 515) (.symbol "quote") [.cons 513] :=
    Store.isList_behind 513
  have shown : s.store.Shows (.cons 513) (ValueTree.behind 513).written :=
    Store.shows_behind (Nat.le_refl 513)
  have unmarked := ValueTree.unmarked_behind 513
  have room : s.depth < s.config.maxDepth := by decide
  obtain ⟨v, store, ended, -, made⟩ := Eval.ends_quote isQuote shown unmarked rfl room 0
  refine ⟨isQuote, shown, unmarked, v, store, ended, fun whole => ?_⟩
  have within := ValueTree.built_eq_iff.mp (made.unique whole)
  exact absurd (within 513 [] (ValueTree.partAt_behind 513)) (Nat.lt_irrefl 513)

end EditorLisp
