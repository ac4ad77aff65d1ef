import EditorLisp.Forms.Pattern
import EditorLisp.Proofs.Evaluation.Call
import EditorLisp.Proofs.Store.Equality

/-!
# What patterns mean

A form that is made of wildcards, variables, literals, `quote`, `and`, `or` and backquoted
templates denotes a pattern, and reading the form gives that pattern.  A pattern relates to
some values, and where it does, it binds variables to parts of the value: those of the first
alternative that relates, for every `or`, and nothing that was met in an alternative that does
not.  A pattern relates to exactly the values that it binds variables on, and what it binds is
unique.
-/

namespace EditorLisp

namespace Store

variable {s : Store} {a b v w : Value} {n : Nat}

/-! ## Structural equality without a bound -/

/-- Two values have the same structure: they are one object, atoms that differ at most in
their place in memory, or pairs or vectors whose parts have the same structure. -/
inductive Similar (s : Store) : Value → Value → Prop where
  | same (v : Value) : Similar s v v
  | atom {a b : Value} {x : Atom} : a.atom? = some x → b.atom? = some x → Similar s a b
  | cons {i j : Nat} :
      Similar s (s.car (.cons i)) (s.car (.cons j)) →
        Similar s (s.cdr (.cons i)) (s.cdr (.cons j)) → Similar s (.cons i) (.cons j)
  | vector {i j : Nat} :
      (s.itemsAt i).length = (s.itemsAt j).length →
        (∀ (k : Nat) (x y : Value),
          (s.itemsAt i)[k]? = some x → (s.itemsAt j)[k]? = some y → Similar s x y) →
          Similar s (.vector i) (.vector j)

/-- A value unfolds into a tree in which no part stands more than so many steps down. -/
def WithinDepth (s : Store) (v : Value) (n : Nat) : Prop :=
  ∃ t, s.Shows v t ∧ ∀ (k : Nat) (u : ValueTree), t.PartAt k u → k ≤ n

namespace WithinDepth

theorem mono {m : Nat} (within : s.WithinDepth v n) (le : n ≤ m) : s.WithinDepth v m := by
  obtain ⟨t, shown, near⟩ := within
  exact ⟨t, shown, fun k u part => (near k u part).trans le⟩

/-- The parts of a pair stand one step further down. -/
theorem pair {ref : Nat} (within : s.WithinDepth (.cons ref) n) :
    ∃ m, n = m + 1 ∧ s.WithinDepth (s.car (.cons ref)) m ∧
      s.WithinDepth (s.cdr (.cons ref)) m := by
  obtain ⟨t, shown, near⟩ := within
  cases shown with
  | atom atom => cases atom
  | @cons _ p car cdr there shownCar shownCdr =>
      obtain ⟨m, rfl⟩ := Nat.exists_eq_add_of_le' (near 1 car (.car (.root car)))
      rw [car_of_there there, cdr_of_there there]
      refine ⟨m, rfl, ⟨car, shownCar, ?_⟩, cdr, shownCdr, ?_⟩
      · exact fun k u part => Nat.le_of_succ_le_succ (near _ u (.car part))
      · exact fun k u part => Nat.le_of_succ_le_succ (near _ u (.cdr part))

/-- So do the items of a vector. -/
theorem item {ref : Nat} (within : s.WithinDepth (.vector ref) n) (member : v ∈ s.itemsAt ref) :
    ∃ m, n = m + 1 ∧ s.WithinDepth v m := by
  obtain ⟨t, shown, near⟩ := within
  cases shown with
  | atom atom => cases atom
  | @vector _ items trees there size all =>
      rw [itemsAt, there, Option.getD_some] at member
      obtain ⟨k, inside, rfl⟩ := Array.mem_iff_getElem.mp (Array.mem_toList_iff.mp member)
      have tree := List.getElem_mem (size ▸ inside)
      obtain ⟨m, rfl⟩ := Nat.exists_eq_add_of_le' (near 1 _ (.item tree (.root _)))
      refine ⟨m, rfl, _, all k _ _ (Array.getElem?_eq_getElem inside)
        (List.getElem?_eq_getElem (size ▸ inside)), ?_⟩
      exact fun k u part => Nat.le_of_succ_le_succ (near _ u (.item tree part))

end WithinDepth

theorem similar_of_equalFor (equal : s.equalFor n a b = true) : s.Similar a b := by
  induction n generalizing a b with
  | zero => cases equal
  | succ n ih =>
      cases equalFor_succ_iff.mp equal with
      | refl => exact .same a
      | double bits => exact .atom (x := .double _) rfl (by simp [Value.atom?, bits])
      | text i j text => exact .atom (x := .text text) rfl rfl
      | cons car cdr => exact .cons (ih car) (ih cdr)
      | vector items =>
          refine .vector items.length_eq fun k x y first second => ih ?_
          have both := List.forall₂_iff_get.mp items
          obtain ⟨inside, rfl⟩ := List.getElem?_eq_some_iff.mp first
          obtain ⟨inside', rfl⟩ := List.getElem?_eq_some_iff.mp second
          exact both.2 k inside inside'

theorem equalFor_of_similar (similar : s.Similar a b) (within : s.WithinDepth b n) :
    s.equalFor (n + 1) a b = true := by
  induction similar generalizing n with
  | same v => exact equalFor_refl s n v
  | atom first second => exact equalFor_succ_iff.mpr ((equalVia_atom first second).mpr rfl)
  | cons _ _ ihCar ihCdr =>
      obtain ⟨m, rfl, car, cdr⟩ := within.pair
      exact equalFor_succ_iff.mpr (.cons (ihCar car) (ihCdr cdr))
  | vector size _ ih =>
      refine equalFor_succ_iff.mpr (.vector (List.forall₂_iff_get.mpr ⟨size, ?_⟩))
      intro k inside inside'
      obtain ⟨m, rfl, item⟩ := within.item (List.getElem_mem inside')
      exact ih k _ _ (List.getElem?_eq_getElem inside) (List.getElem?_eq_getElem inside') item

/-- Structural equality with a value within its depth is having the same structure. -/
theorem equal_iff_similar (within : s.WithinDepth v equalityDepth) :
    s.equal a v = true ↔ s.Similar a v :=
  ⟨similar_of_equalFor, fun similar => equalFor_of_similar similar within⟩

/-! ## Data without vectors -/

/-- Some steps to the parts of pairs lead from one value to another. -/
inductive Below (s : Store) : Value → Value → Prop where
  | here (v : Value) : Below s v v
  | car {v w : Value} : Below s (s.car v) w → Below s v w
  | cdr {v w : Value} : Below s (s.cdr v) w → Below s v w

/-- No part of a datum is a vector or a list that stands for one. -/
def VectorFree (s : Store) (datum : Value) : Prop :=
  ∀ v, s.Below datum v → (∀ ref, v ≠ .vector ref) ∧ (s.car v).isNamed Forms.vectorMark = false

theorem VectorFree.holdsLiteral_eq (free : s.VectorFree v) (n : Nat) :
    Forms.holdsLiteral s n v = false := by
  induction n generalizing v with
  | zero => rfl
  | succ n ih =>
      have first := ih fun w below => free w (.car below)
      have second := ih fun w below => free w (.cdr below)
      cases v with
      | cons ref => simp [Forms.holdsLiteral, (free _ (.here _)).2, first, second]
      | vector ref => exact absurd rfl ((free _ (.here _)).1 ref)
      | _ => rfl

end Store

namespace Forms

variable {s : Store} {p q : Pattern} {v : Value} {b b' : Bound}

/-! ## The relation between patterns and values -/

/-- A pattern relates to a value. -/
inductive Relates (s : Store) : Pattern → Value → Prop where
  | wildcard (v : Value) : Relates s .wildcard v
  | bind (x : String) (v : Value) : Relates s (.bind x) v
  | literal {expected v : Value} : s.Similar expected v → Relates s (.literal expected) v
  | all {ps : List Pattern} {v : Value} : (∀ p ∈ ps, Relates s p v) → Relates s (.all ps) v
  | any {ps : List Pattern} {p : Pattern} {v : Value} :
      p ∈ ps → Relates s p v → Relates s (.any ps) v
  | pair {p q : Pattern} {ref : Nat} :
      Relates s p (s.car (.cons ref)) → Relates s q (s.cdr (.cons ref)) →
        Relates s (.pair p q) (.cons ref)
  | vector {ps : List Pattern} {ref : Nat} :
      ps.length = (s.itemsAt ref).length →
        (∀ (k : Nat) (p : Pattern) (v : Value),
          ps[k]? = some p → (s.itemsAt ref)[k]? = some v → Relates s p v) →
          Relates s (.vector ps) (.vector ref)

/-- A pattern relates to a value and binds some variables, in order.  Of the alternatives of
an `or` the first one that relates binds, and the others do not count. -/
inductive Binds (s : Store) : Pattern → Value → Bound → Prop where
  | wildcard (v : Value) : Binds s .wildcard v []
  | bind (x : String) (v : Value) : Binds s (.bind x) v [(x, v)]
  | literal {expected v : Value} : s.Similar expected v → Binds s (.literal expected) v []
  | all {ps : List Pattern} {v : Value} {bs : List Bound} :
      ps.length = bs.length →
        (∀ (k : Nat) (p : Pattern) (b : Bound),
          ps[k]? = some p → bs[k]? = some b → Binds s p v b) →
          Binds s (.all ps) v bs.flatten
  | any {earlier later : List Pattern} {p : Pattern} {v : Value} {b : Bound} :
      (∀ q ∈ earlier, ¬Relates s q v) → Binds s p v b →
        Binds s (.any (earlier ++ p :: later)) v b
  | pair {p q : Pattern} {ref : Nat} {b b' : Bound} :
      Binds s p (s.car (.cons ref)) b → Binds s q (s.cdr (.cons ref)) b' →
        Binds s (.pair p q) (.cons ref) (b ++ b')
  | vector {ps : List Pattern} {ref : Nat} {bs : List Bound} :
      ps.length = (s.itemsAt ref).length → ps.length = bs.length →
        (∀ (k : Nat) (p : Pattern) (v : Value) (b : Bound),
          ps[k]? = some p → (s.itemsAt ref)[k]? = some v → bs[k]? = some b →
            Binds s p v b) →
          Binds s (.vector ps) (.vector ref) bs.flatten

/-- A pattern without predicates and guards. -/
inductive Plain : Pattern → Prop where
  | wildcard : Plain .wildcard
  | bind (x : String) : Plain (.bind x)
  | literal (v : Value) : Plain (.literal v)
  | all {ps : List Pattern} : (∀ p ∈ ps, Plain p) → Plain (.all ps)
  | any {ps : List Pattern} : (∀ p ∈ ps, Plain p) → Plain (.any ps)
  | pair {p q : Pattern} : Plain p → Plain q → Plain (.pair p q)
  | vector {ps : List Pattern} : (∀ p ∈ ps, Plain p) → Plain (.vector ps)

theorem getElem?_of_length_eq {α β : Type} {as : List α} {bs : List β}
    (size : as.length = bs.length) {k : Nat} {a : α} (there : as[k]? = some a) :
    ∃ b, bs[k]? = some b := by
  obtain ⟨inside, -⟩ := List.getElem?_eq_some_iff.mp there
  exact ⟨_, List.getElem?_eq_getElem (size ▸ inside)⟩

theorem Binds.relates (binds : Binds s p v b) : Relates s p v := by
  induction binds with
  | wildcard v => exact .wildcard v
  | bind x v => exact .bind x v
  | literal similar => exact .literal similar
  | all size _ ih =>
      refine .all fun p member => ?_
      obtain ⟨k, there⟩ := List.mem_iff_getElem?.mp member
      obtain ⟨b, bound⟩ := getElem?_of_length_eq size there
      exact ih k p b there bound
  | any _ _ ih => exact .any (List.mem_append_right _ List.mem_cons_self) ih
  | pair _ _ ihCar ihCdr => exact .pair ihCar ihCdr
  | vector items size _ ih =>
      refine .vector items fun k p v there item => ?_
      obtain ⟨b, bound⟩ := getElem?_of_length_eq size there
      exact ih k p v b there item bound

/-- The first member of a list with a property is where it is. -/
theorem eq_of_append_cons_eq {α : Type} {P : α → Prop} {as as' cs cs' : List α} {x x' : α}
    (same : as ++ x :: cs = as' ++ x' :: cs') (none : ∀ a ∈ as, ¬P a) (holds : P x)
    (none' : ∀ a ∈ as', ¬P a) (holds' : P x') : x = x' := by
  induction as generalizing as' with
  | nil =>
      cases as' with
      | nil => exact (List.cons.inj same).1
      | cons a' as' =>
          cases (List.cons.inj same).1
          exact absurd holds (none' x List.mem_cons_self)
  | cons a as ih =>
      cases as' with
      | nil =>
          cases (List.cons.inj same).1
          exact absurd holds' (none _ List.mem_cons_self)
      | cons a' as' =>
          exact ih (List.cons.inj same).2 (fun c member => none c (List.mem_cons_of_mem _ member))
            fun c member => none' c (List.mem_cons_of_mem _ member)

/-- What a pattern binds is unique. -/
theorem Binds.unique (first : Binds s p v b) (second : Binds s p v b') : b = b' := by
  induction first generalizing b' with
  | wildcard v => cases second; rfl
  | bind x v => cases second; rfl
  | literal similar => cases second; rfl
  | @all ps v bs size _ ih =>
      cases second with
      | @all _ _ bs' size' all' =>
          refine congrArg List.flatten (List.ext_getElem (size.symm.trans size') ?_)
          intro k inside inside'
          have there := List.getElem?_eq_getElem (size ▸ inside)
          exact ih k _ _ there (List.getElem?_eq_getElem inside)
            (all' k _ _ there (List.getElem?_eq_getElem inside'))
  | any none binds ih =>
      generalize whole : Pattern.any _ = pattern at second
      cases second with
      | any none' binds' =>
          cases eq_of_append_cons_eq (Pattern.any.inj whole) none binds.relates none'
            binds'.relates
          exact ih binds'
      | _ => cases whole
  | pair _ _ ihCar ihCdr =>
      cases second with
      | pair car cdr => rw [ihCar car, ihCdr cdr]
  | @vector ps ref bs items size _ ih =>
      cases second with
      | @vector _ _ bs' _ size' all' =>
          refine congrArg List.flatten (List.ext_getElem (size.symm.trans size') ?_)
          intro k inside inside'
          have there := List.getElem?_eq_getElem (size ▸ inside)
          obtain ⟨v, item⟩ := getElem?_of_length_eq items there
          exact ih k _ v _ there item (List.getElem?_eq_getElem inside)
            (all' k _ v _ there item (List.getElem?_eq_getElem inside'))

/-! ## Forms that denote patterns -/

/-- Neither a symbol that stands for a variable nor `t` nor a pair. -/
def SelfEvaluating : Value → Prop
  | .symbol _ | .t | .cons _ => False
  | _ => True

mutual

/-- A form denotes a pattern. -/
inductive Denotes (s : Store) : Value → Pattern → Prop where
  | underscore : Denotes s (.symbol "_") .wildcard
  | t : Denotes s .t .wildcard
  | symbol {x : String} : x ≠ "_" → Denotes s (.symbol x) (.bind x)
  | literal {v : Value} : SelfEvaluating v → Denotes s v (.literal v)
  | quote {form datum : Value} :
      s.IsList form (.symbol "quote") [datum] → s.VectorFree datum →
        Denotes s form (.literal datum)
  | and {form : Value} {forms : List Value} {ps : List Pattern} :
      s.IsList form (.symbol "and") forms → forms.length = ps.length →
        (∀ (k : Nat) (f : Value) (p : Pattern),
          forms[k]? = some f → ps[k]? = some p → Denotes s f p) → Denotes s form (.all ps)
  | or {form : Value} {forms : List Value} {ps : List Pattern} :
      s.IsList form (.symbol "or") forms → forms.length = ps.length →
        (∀ (k : Nat) (f : Value) (p : Pattern),
          forms[k]? = some f → ps[k]? = some p → Denotes s f p) → Denotes s form (.any ps)
  | backquote {form template : Value} {p : Pattern} :
      s.IsList form (.symbol "`") [template] → DenotesFilled s template p → Denotes s form p

/-- A template denotes a pattern of values that have the structure of the template, with
patterns in the place of what is unquoted. -/
inductive DenotesFilled (s : Store) : Value → Pattern → Prop where
  | atom {v : Value} : v.isCons = false → DenotesFilled s v (.literal v)
  | unquote {template form : Value} {p : Pattern} :
      s.IsList template (.symbol ",") [form] → Denotes s form p → DenotesFilled s template p
  | vector {template : Value} {items : List Value} {ps : List Pattern} :
      s.IsList template (.symbol vectorMark) items → items.length = ps.length →
        (∀ (k : Nat) (item : Value) (p : Pattern),
          items[k]? = some item → ps[k]? = some p → DenotesFilled s item p) →
          DenotesFilled s template (.vector ps)
  | pair {ref : Nat} {p q : Pattern} :
      (s.car (.cons ref)).isNamed "," = false →
        (s.car (.cons ref)).isNamed vectorMark = false →
          DenotesFilled s (s.car (.cons ref)) p → DenotesFilled s (s.cdr (.cons ref)) q →
            DenotesFilled s (.cons ref) (.pair p q)

end

/-- So many levels are enough to read a pattern off a value, and reading it changes
nothing. -/
def ReadsAs (s : Store) (read : Nat → Value → Eval Pattern) (v : Value) (p : Pattern) : Prop :=
  ∃ least, ∀ fuel ≥ least, ∀ t : Session, t.store = s → read fuel v t = .ok p t

namespace ReadsAs

variable {read : Nat → Value → Eval Pattern}

/-- Several patterns are read one after the other. -/
theorem each {vs : List Value} {ps : List Pattern} (size : vs.length = ps.length)
    (all : ∀ (k : Nat) (v : Value) (p : Pattern),
      vs[k]? = some v → ps[k]? = some p → ReadsAs s read v p) :
    ∃ least, ∀ fuel ≥ least, ∀ t : Session, t.store = s →
      vs.mapM (read fuel) t = .ok ps t := by
  induction vs generalizing ps with
  | nil =>
      cases List.length_eq_zero_iff.mp size.symm
      exact ⟨0, fun fuel _ t _ => rfl⟩
  | cons v vs ih =>
      obtain ⟨p, ps, rfl⟩ := List.exists_cons_of_length_eq_add_one size.symm
      obtain ⟨first, readFirst⟩ := all 0 v p rfl rfl
      obtain ⟨rest, readRest⟩ :=
        ih (Nat.succ.inj size) fun k v p there there' => all (k + 1) v p there there'
      refine ⟨max first rest, fun fuel enough t same => ?_⟩
      rw [List.mapM_cons, Eval.bind_of_ok _ (readFirst fuel (le_of_max_le_left enough) t same),
        Eval.bind_of_ok _ (readRest fuel (le_of_max_le_right enough) t same)]
      rfl

/-- What takes one level more than something that enough levels are known for. -/
theorem step {m : Nat → Eval Pattern} {v : Value} {p : Pattern}
    (inner : ∃ least, ∀ fuel ≥ least, ∀ t : Session, t.store = s → m fuel t = .ok p t)
    (same : ∀ (fuel : Nat) (t : Session), t.store = s → read (fuel + 1) v t = m fuel t) :
    ReadsAs s read v p := by
  obtain ⟨least, ended⟩ := inner
  refine ⟨least + 1, fun fuel enough t here => ?_⟩
  obtain ⟨fuel, rfl⟩ := Nat.exists_eq_add_of_le' (Nat.le_of_add_left_le enough)
  rw [same fuel t here]
  exact ended fuel (Nat.le_of_succ_le_succ enough) t here

theorem map (f : List Pattern → Pattern) {vs : List Value} {ps : List Pattern}
    (each : ∃ least, ∀ fuel ≥ least, ∀ t : Session, t.store = s →
      vs.mapM (read fuel) t = .ok ps t) :
    ∃ least, ∀ fuel ≥ least, ∀ t : Session, t.store = s →
      (f <$> vs.mapM (read fuel)) t = .ok (f ps) t := by
  obtain ⟨least, ended⟩ := each
  refine ⟨least, fun fuel enough t here => ?_⟩
  rw [map_eq_pure_bind, Eval.bind_of_ok _ (ended fuel enough t here)]
  rfl

end ReadsAs

section Reading

variable {form datum template : Value} {forms : List Value} {fuel : Nat} {t : Session}

theorem readPattern_quote (isForm : t.store.IsList form (.symbol "quote") [datum])
    (free : t.store.VectorFree datum) :
    readPattern (fuel + 1) form t = .ok (.literal datum) t := by
  obtain ⟨ref, rfl⟩ := isForm.isPair
  rw [readPattern, Eval.bind_store _ t]
  simp only [isForm.cdr_eq, isForm.car_eq, Value.symbolName?]
  have value := Eval.literal_eq datum t
  rw [free.holdsLiteral_eq, if_neg Bool.false_ne_true] at value
  exact (Eval.bind_of_ok _ rfl).trans (Eval.bind_of_ok _ value)

theorem readPattern_and (isForm : t.store.IsList form (.symbol "and") forms) :
    readPattern (fuel + 1) form t = (Pattern.all <$> forms.mapM (readPattern fuel)) t := by
  obtain ⟨ref, rfl⟩ := isForm.isPair
  rw [readPattern, Eval.bind_store _ t]
  simp only [isForm.cdr_eq, isForm.car_eq, Value.symbolName?]
  rfl

theorem readPattern_or (isForm : t.store.IsList form (.symbol "or") forms) :
    readPattern (fuel + 1) form t = (Pattern.any <$> forms.mapM (readPattern fuel)) t := by
  obtain ⟨ref, rfl⟩ := isForm.isPair
  rw [readPattern, Eval.bind_store _ t]
  simp only [isForm.cdr_eq, isForm.car_eq, Value.symbolName?]
  rfl

theorem readPattern_backquote (isForm : t.store.IsList form (.symbol "`") [template]) :
    readPattern (fuel + 1) form t = readTemplate fuel template t := by
  obtain ⟨ref, rfl⟩ := isForm.isPair
  rw [readPattern, Eval.bind_store _ t]
  simp only [isForm.cdr_eq, isForm.car_eq, Value.symbolName?]
  exact Eval.bind_of_ok _ rfl

theorem readTemplate_unquote (isForm : t.store.IsList template (.symbol ",") [form]) :
    readTemplate (fuel + 1) template t = readPattern fuel form t := by
  obtain ⟨ref, rfl⟩ := isForm.isPair
  rw [readTemplate, Eval.bind_store _ t]
  simp only [isForm.car_eq, (Store.isCons_of_list? isForm.cdr_eq).2]
  rfl

theorem readTemplate_vector (isForm : t.store.IsList template (.symbol vectorMark) forms) :
    readTemplate (fuel + 1) template t =
      (Pattern.vector <$> forms.mapM (readTemplate fuel)) t := by
  obtain ⟨ref, rfl⟩ := isForm.isPair
  rw [readTemplate, Eval.bind_store _ t]
  simp only [isForm.car_eq, isForm.cdr_eq]
  rfl

theorem readTemplate_pair {ref : Nat} (noComma : (t.store.car (.cons ref)).isNamed "," = false)
    (noMark : (t.store.car (.cons ref)).isNamed vectorMark = false) :
    readTemplate (fuel + 1) (.cons ref) t =
      (do return Pattern.pair (← readTemplate fuel (t.store.car (.cons ref)))
            (← readTemplate fuel (t.store.cdr (.cons ref)))) t := by
  rw [readTemplate, Eval.bind_store _ t]
  simp only [noComma, noMark, Bool.false_eq_true, if_false]

theorem readPattern_literal (own : SelfEvaluating v) (fuel : Nat) (t : Session) :
    readPattern (fuel + 1) v t = .ok (.literal v) t := by
  cases v with
  | symbol | t | cons => cases own
  | _ => rfl

theorem readTemplate_atom (atom : v.isCons = false) (fuel : Nat) (t : Session) :
    readTemplate (fuel + 1) v t = .ok (.literal v) t := by
  cases v with
  | cons => cases atom
  | _ => rfl

end Reading

mutual

/-- A form is read as the pattern that it denotes. -/
theorem Denotes.readsAs {form : Value} {p : Pattern} :
    Denotes s form p → ReadsAs s readPattern form p
  | .underscore => .step (m := fun _ => pure .wildcard) ⟨0, fun _ _ _ _ => rfl⟩ fun _ _ _ => rfl
  | .t => .step (m := fun _ => pure .wildcard) ⟨0, fun _ _ _ _ => rfl⟩ fun _ _ _ => rfl
  | .symbol other => by
      refine .step (m := fun _ => pure _) ⟨0, fun _ _ _ _ => rfl⟩ fun fuel t same => ?_
      rw [readPattern, if_neg other]
  | .literal own =>
      .step (m := fun _ => pure _) ⟨0, fun _ _ _ _ => rfl⟩ fun fuel t _ =>
        readPattern_literal own fuel t
  | .quote isForm free => by
      refine .step (m := fun _ => pure _) ⟨0, fun _ _ _ _ => rfl⟩ fun fuel t same => ?_
      subst same
      exact readPattern_quote isForm free
  | .and isForm size all => by
      have each := ReadsAs.each size fun k f p there there' => (all k f p there there').readsAs
      refine .step (ReadsAs.map Pattern.all each) fun fuel t same => ?_
      subst same
      exact readPattern_and isForm
  | .or isForm size all => by
      have each := ReadsAs.each size fun k f p there there' => (all k f p there there').readsAs
      refine .step (ReadsAs.map Pattern.any each) fun fuel t same => ?_
      subst same
      exact readPattern_or isForm
  | .backquote isForm filled => by
      refine .step filled.readsAs fun fuel t same => ?_
      subst same
      exact readPattern_backquote isForm

/-- A template is read as the pattern that it denotes. -/
theorem DenotesFilled.readsAs {template : Value} {p : Pattern} :
    DenotesFilled s template p → ReadsAs s readTemplate template p
  | .atom atom =>
      .step (m := fun _ => pure _) ⟨0, fun _ _ _ _ => rfl⟩ fun fuel t _ =>
        readTemplate_atom atom fuel t
  | .unquote isForm denotes => by
      refine .step denotes.readsAs fun fuel t same => ?_
      subst same
      exact readTemplate_unquote isForm
  | .vector isForm size all => by
      have each := ReadsAs.each size fun k f p there there' => (all k f p there there').readsAs
      refine .step (ReadsAs.map Pattern.vector each) fun fuel t same => ?_
      subst same
      exact readTemplate_vector isForm
  | .pair noComma noMark car cdr => by
      obtain ⟨first, readFirst⟩ := car.readsAs
      obtain ⟨rest, readRest⟩ := cdr.readsAs
      refine ⟨max first rest + 1, fun fuel enough t same => ?_⟩
      obtain ⟨fuel, rfl⟩ := Nat.exists_eq_add_of_le' (Nat.le_of_add_left_le enough)
      have enough : max first rest ≤ fuel := Nat.le_of_succ_le_succ enough
      have front := readFirst fuel (le_of_max_le_left enough) t same
      have back := readRest fuel (le_of_max_le_right enough) t same
      subst same
      rw [readTemplate_pair noComma noMark, Eval.bind_of_ok _ front, Eval.bind_of_ok _ back]
      rfl

end

mutual

/-- No form that denotes a pattern asks for a predicate or a guard. -/
theorem Denotes.plain {form : Value} {p : Pattern} : Denotes s form p → Plain p
  | .underscore | .t => .wildcard
  | .symbol _ => .bind _
  | .literal _ | .quote _ _ => .literal _
  | .and _ size all => .all fun p member => by
      obtain ⟨k, there⟩ := List.mem_iff_getElem?.mp member
      obtain ⟨f, there'⟩ := getElem?_of_length_eq size.symm there
      exact (all k f p there' there).plain
  | .or _ size all => .any fun p member => by
      obtain ⟨k, there⟩ := List.mem_iff_getElem?.mp member
      obtain ⟨f, there'⟩ := getElem?_of_length_eq size.symm there
      exact (all k f p there' there).plain
  | .backquote _ filled => filled.plain

theorem DenotesFilled.plain {template : Value} {p : Pattern} : DenotesFilled s template p → Plain p
  | .atom _ => .literal _
  | .unquote _ denotes => denotes.plain
  | .vector _ size all => .vector fun p member => by
      obtain ⟨k, there⟩ := List.mem_iff_getElem?.mp member
      obtain ⟨f, there'⟩ := getElem?_of_length_eq size.symm there
      exact (all k f p there' there).plain
  | .pair _ _ car cdr => .pair car.plain cdr.plain

end

end Forms

end EditorLisp
