import EditorLisp.Proofs.Forms.Quotation
import EditorLisp.Proofs.Store.Lists

/-!
# Templates

A backquoted template is data with forms in it.  Each form stands for its value, or, where it is
spliced in, for the elements of its value.  What a template becomes is told here apart from how it
is walked: the copy that is made depends only on the template and on what its forms gave, and those
are evaluated one after the other, from left to right.
-/

namespace EditorLisp

open Forms

/-! ## What is written and what it becomes -/

/-- A form in a template. -/
inductive Unquote where
  /-- The value of a form is put in its place. -/
  | value (form : Value)
  /-- The elements of the value of a form are put in its place. -/
  | splice (form : Value)

/-- The form that is evaluated. -/
def Unquote.form : Unquote → Value
  | .value form | .splice form => form

/-- A template without further templates in it. -/
inductive Template where
  /-- A datum that is neither a pair nor a vector. -/
  | atom (v : Value)
  /-- A form, as the whole template, as an element of a list or as its tail. -/
  | unquote (form : Value)
  /-- A list with its first element and what comes after it. -/
  | cons (first rest : Template)
  /-- A list that begins with the elements of the value of a form. -/
  | splice (form : Value) (rest : Template)
  /-- A vector, with the list of its items. -/
  | vector (items : Template)

namespace Template

/-- The forms in a template, from left to right. -/
def unquotes : Template → List Unquote
  | .atom _ => []
  | .unquote form => [.value form]
  | .cons first rest => first.unquotes ++ rest.unquotes
  | .splice form rest => .splice form :: rest.unquotes
  | .vector items => items.unquotes

/-- A template is a vector. -/
def IsVector : Template → Prop
  | .vector _ => True
  | _ => False

/-- A template is a list that ends in the empty list. -/
def IsProper : Template → Prop
  | .atom v => v = .nil
  | .cons _ rest | .splice _ rest => rest.IsProper
  | .unquote _ | .vector _ => False

/-- The number of parts of a template. -/
def size : Template → Nat
  | .atom _ | .unquote _ => 1
  | .cons first rest => first.size + rest.size + 1
  | .splice _ rest => rest.size + 1
  | .vector items => items.size + 1

/-- A copy is a template with its forms replaced by what they gave, in order.  A form that is not
spliced in gave one value. -/
inductive Filled : Template → List (List Value) → Copy → Prop
  | atom (v : Value) : Filled (.atom v) [] (.leaf v)
  | unquote (form v : Value) : Filled (.unquote form) [[v]] (.leaf v)
  | cons {first rest : Template} {answers answers' : List (List Value)} {car cdr : Copy} :
      Filled first answers car → Filled rest answers' cdr →
        Filled (.cons first rest) (answers ++ answers') (.cons car cdr)
  | splice {rest : Template} {answers : List (List Value)} {tail : Copy} (form : Value)
      (vs : List Value) : Filled rest answers tail →
        Filled (.splice form rest) (vs :: answers) (.listWithTail (vs.map .leaf) tail)
  | vector {items : Template} {answers : List (List Value)} {copies : List Copy} :
      Filled items answers (.listWithTail copies (.leaf .nil)) →
        Filled (.vector items) answers (.vector copies)

variable {T first rest : Template} {answers answers' : List (List Value)} {c c' : Copy}

namespace Filled

/-- A template takes one answer for each form. -/
theorem length_eq (filled : Filled T answers c) : answers.length = T.unquotes.length := by
  induction filled with
  | atom v => rfl
  | unquote form v => rfl
  | cons _ _ ihCar ihCdr => rw [unquotes, List.length_append, List.length_append, ihCar, ihCdr]
  | splice form vs _ ih => rw [unquotes, List.length_cons, List.length_cons, ih]
  | vector _ ih => exact ih

end Filled

end Template

namespace Forms.Copy

theorem list?_listWithTail (st : Store) (copies : List Copy) :
    (listWithTail copies (.leaf .nil)).list? st = some copies := by
  induction copies with
  | nil => rfl
  | cons c copies ih => exact congrArg (Option.map (c :: ·)) ih

theorem listWithTail_injective : Function.Injective fun copies => listWithTail copies (.leaf .nil) :=
  fun copies copies' same => by
    have := congrArg (list? {}) same
    simpa only [list?_listWithTail, Option.some.injEq] using this

end Forms.Copy

/-- The answers determine the copy. -/
theorem Template.Filled.unique {T : Template} {answers : List (List Value)} {c c' : Copy}
    (filled : T.Filled answers c) (filled' : T.Filled answers c') : c = c' := by
  induction filled generalizing c' with
  | atom v =>
      cases filled'
      rfl
  | unquote form v =>
      cases filled'
      rfl
  | @cons first rest answers answers' car cdr filledCar filledCdr ihCar ihCdr =>
      generalize same : answers ++ answers' = all at filled'
      cases filled' with
      | @cons _ _ others others' _ _ filledCar' filledCdr' =>
          have sizes := filledCar.length_eq.trans filledCar'.length_eq.symm
          obtain ⟨rfl, rfl⟩ := List.append_inj same sizes
          rw [ihCar filledCar', ihCdr filledCdr']
  | splice form vs _ ih =>
      cases filled' with
      | splice _ _ filled' => rw [ih filled']
  | vector _ ih =>
      cases filled' with
      | vector filled' => rw [Copy.listWithTail_injective (ih filled')]

/-! ## Copies in the store -/

/-- A value of a store is a copy, part by part. -/
inductive Store.Realizes (st : Store) : Value → Copy → Prop where
  | leaf (v : Value) : Realizes st v (.leaf v)
  | cons {ref : Nat} {p : Pair} {car cdr : Copy} :
      st.pairs[ref]? = some p → Realizes st p.car car → Realizes st p.cdr cdr →
        Realizes st (.cons ref) (.cons car cdr)
  | vector {ref : Nat} {items : Array Value} {copies : List Copy} :
      st.vectors[ref]? = some items → items.size = copies.length →
        (∀ (k : Nat) (item : Value) (c : Copy),
          items[k]? = some item → copies[k]? = some c → Realizes st item c) →
          Realizes st (.vector ref) (.vector copies)

namespace Store

variable {st st' : Store} {v : Value} {c : Copy}

theorem Realizes.mono (realizes : st.Realizes v c) (kept : st.DataKeptIn st') :
    st'.Realizes v c := by
  induction realizes with
  | leaf v => exact .leaf v
  | cons there _ _ ihCar ihCdr => exact .cons (kept.pairs _ _ there) ihCar ihCdr
  | vector there size _ ih => exact .vector (kept.vectors _ _ there) size ih

theorem Realizes.eq_of_leaf {w : Value} (realizes : st.Realizes v (.leaf w)) : v = w := by
  cases realizes
  rfl

/-- A copy of a proper list of values is one. -/
theorem Realizes.lists {vs : List Value}
    (realizes : st.Realizes v (.listWithTail (vs.map .leaf) (.leaf .nil))) : st.Lists v vs := by
  induction vs generalizing v with
  | nil =>
      cases realizes
      exact .nil
  | cons w vs ih =>
      cases realizes with
      | cons there car cdr =>
          rw [← car.eq_of_leaf]
          exact .cons there (ih cdr)

mutual

/-- What is built is the copy, of new pairs and vectors. -/
theorem realizes_build (st : Store) (c : Copy) :
    st.EnlargedTo (c.build st).2 ∧ (c.build st).2.Realizes (c.build st).1 c := by
  cases c with
  | leaf v => exact ⟨⟨.refl st, rfl⟩, .leaf v⟩
  | cons car cdr =>
      obtain ⟨enlargedCar, realCar⟩ := realizes_build st car
      obtain ⟨enlargedCdr, realCdr⟩ := realizes_build (car.build st).2 cdr
      have added := DataKeptIn.cons (cdr.build (car.build st).2).2 (car.build st).1
        (cdr.build (car.build st).2).1
      refine ⟨(enlargedCar.trans enlargedCdr).trans ⟨added, rfl⟩,
        .cons Array.getElem?_push_size ?_ ?_⟩
      · exact (realCar.mono enlargedCdr.toDataKeptIn).mono added
      · exact realCdr.mono added
  | vector items =>
      obtain ⟨enlarged, all⟩ := realizes_buildAll st items
      have added := DataKeptIn.vector (Copy.buildAll items st).2 (Copy.buildAll items st).1.toArray
      have all : List.Forall₂ _ (Copy.buildAll items st).1.toArray.toList items := all
      obtain ⟨size, each⟩ := forall₂_iff_getElem?.mp all
      exact ⟨enlarged.trans ⟨added, rfl⟩, .vector Array.getElem?_push_size size
        fun k item c there there' => (each k item c there there').mono added⟩

theorem realizes_buildAll (st : Store) (copies : List Copy) :
    st.EnlargedTo (Copy.buildAll copies st).2 ∧
      List.Forall₂ (Copy.buildAll copies st).2.Realizes (Copy.buildAll copies st).1 copies := by
  cases copies with
  | nil => exact ⟨⟨.refl st, rfl⟩, .nil⟩
  | cons c rest =>
      obtain ⟨enlarged, real⟩ := realizes_build st c
      obtain ⟨enlargedRest, all⟩ := realizes_buildAll (c.build st).2 rest
      exact ⟨enlarged.trans enlargedRest, .cons (real.mono enlargedRest.toDataKeptIn) all⟩

end

end Store

end EditorLisp
