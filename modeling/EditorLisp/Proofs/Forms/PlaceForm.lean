import EditorLisp.Proofs.Evaluation.InTurn
import EditorLisp.Proofs.Forms.Place

/-!
# Forms that name places

A place is named by the name of a variable or by a call of the function that reads it.  The form is
resolved once: its subforms are evaluated in turn, and what they give is checked.  What comes of it
is a place that stays the same whatever is done to the session afterwards; a list that is relinked
in the meantime no longer has it where the form says.
-/

namespace EditorLisp

open Eval

namespace Forms

/-! ## Reading and writing -/

namespace Place

variable {place : Place} {frame : Nat} {s : Session} {list seq : Value} {index : Int64}

theorem read_eq {v : Value} (found : place.content? frame s = some v) :
    place.read frame s = .ok v s := by
  unfold content? at found
  split at found
  next name =>
      unfold read
      refine (bind_session _ s).trans ?_
      rw [found]
      rfl
  next ref =>
      obtain ⟨p, there, rfl⟩ := Option.map_eq_some_iff.mp found
      exact congrArg (Outcome.ok · s) (Store.car_of_there there)
  next ref =>
      obtain ⟨p, there, rfl⟩ := Option.map_eq_some_iff.mp found
      exact congrArg (Outcome.ok · s) (Store.cdr_of_there there)
  next ref i =>
      obtain ⟨items, there, item⟩ := Option.bind_eq_some_iff.mp found
      refine congrArg (Outcome.ok · s) ?_
      rw [Store.items?, there, Option.getD_some, Option.getD_some, Array.getD_eq_getD_getElem?,
        item, Option.getD_some]
  next => cases found

/-- Only a variable may be without a value. -/
theorem IsThere.exists_content? (isThere : place.IsThere s.store) (frame : Nat) :
    (∃ v, place.content? frame s = some v) ∨ ∃ name, place = .var name := by
  cases isThere with
  | var name => exact .inr ⟨name, rfl⟩
  | car there =>
      exact .inl ⟨_, Option.map_eq_some_iff.mpr ⟨_, Array.getElem?_eq_getElem there, rfl⟩⟩
  | cdr there =>
      exact .inl ⟨_, Option.map_eq_some_iff.mpr ⟨_, Array.getElem?_eq_getElem there, rfl⟩⟩
  | slot there inside =>
      exact .inl ⟨_, Option.bind_eq_some_iff.mpr ⟨_, there, Array.getElem?_eq_getElem inside⟩⟩

theorem course_read (isThere : place.IsThere s.store) :
    Course frame s [] (fun _ t v u => u = t ∧ place.content? frame s = some v)
      (place.read frame s) := by
  cases found : place.content? frame s with
  | some v =>
      rw [read_eq found]
      exact .ok (.nil s) ⟨rfl, rfl⟩
  | none =>
      rcases isThere.exists_content? frame with ⟨v, found'⟩ | ⟨name, rfl⟩
      · rw [found] at found'
        cases found'
      · have refused : (Place.var name).read frame s =
            (signal "void-variable" [.ofName name] : Eval Value) s := by
          unfold read
          refine (bind_session _ s).trans ?_
          rw [show s.valueIn? name frame = none from found]
        rw [refused]
        exact .signal _ _ s

/-- Only a constant cannot be written, and then nothing is. -/
theorem course_write (inOrder : s.workspace.WellFormed) (isThere : place.IsThere s.store)
    (new : Value) :
    Course frame s [] (fun _ t _ u => place.PutsInto frame new t u) (place.write frame new s) := by
  cases isThere with
  | car there => exact .ok (.nil s) (.car there)
  | cdr there => exact .ok (.nil s) (.cdr there)
  | slot there inside => exact .ok (.nil s) (.slot there inside)
  | var name =>
      show Course frame s [] _ (setVariable name new frame s)
      unfold setVariable
      by_cases constant : isConstantName name = true
      · rw [if_pos constant]
        exact .signal _ _ s
      · obtain ⟨b, current, -⟩ := Workspace.current?_of_wellFormed inOrder
        rw [if_neg constant, bind_session _ s]
        have outside (unbound : s.holder? frame name = none) :
            Course frame s [] (fun _ t _ u => (Place.var name).PutsInto frame new t u)
              (modify (·.setOuter name new) s) := by
          refine .ok (.nil s) ?_
          show PutsInto frame new s _ (s.setOuter name new)
          rw [Session.setOuter_eq inOrder current]
          split
          next isLocal => exact .inBuffer unbound current isLocal
          next isGlobal => exact .globally unbound current (Bool.eq_false_of_not_eq_true isGlobal)
        cases special : s.isSpecial name with
        | true => exact outside (if_pos special)
        | false =>
            cases found : s.store.binder? frame name with
            | none => exact outside (by rw [Session.holder?, special, found]; rfl)
            | some holder =>
                obtain ⟨i, old⟩ := holder
                exact .ok (.nil s) (.bound (Session.holder?_eq_some_iff.mpr ⟨special, old, found⟩))

theorem course_pair (v : Value) (s : Session) :
    Course frame s [] (fun _ t w u => u = t ∧ v = w ∧ ∃ ref, w = .cons ref) (pair v s) := by
  unfold pair
  split
  next isPair =>
      refine .ok (.nil s) ⟨rfl, rfl, ?_⟩
      cases v with
      | cons ref => exact ⟨ref, rfl⟩
      | _ => cases isPair
  next => exact .leave _ s

theorem course_cell (list : Value) (index : Int64) (s : Session) :
    Course frame s []
      (fun _ t place u => u = t ∧ ∃ ref, 0 ≤ index.toInt ∧
        s.store.after index.toInt.toNat list = .cons ref ∧ place = .car (.cons ref))
      (cell list index s) := by
  unfold cell
  split
  next => exact .signal _ _ s
  next natural =>
      rw [bind_store _ s]
      split
      next isPair =>
          cases found : s.store.after index.toInt.toNat list with
          | cons ref =>
              refine .ok (.nil s) ⟨rfl, ref, ?_, rfl, rfl⟩
              rw [Int64.lt_iff_toInt_lt] at natural
              exact Int.not_lt.mp natural
          | _ =>
              rw [found] at isPair
              cases isPair
      next => exact .signal _ _ s

theorem course_element (seq : Value) (index : Int64) (s : Session) :
    Course frame s []
      (fun _ t place u => u = t ∧ ∃ ref items, seq = .vector ref ∧
        s.store.vectors[ref]? = some items ∧ 0 ≤ index.toInt ∧ index.toInt.toNat < items.size ∧
          place = .slot (.vector ref) index.toInt.toNat)
      (element seq index s) := by
  unfold element
  rw [bind_store _ s]
  cases seq with
  | vector ref =>
      rw [Store.items?]
      dsimp only
      split
      next inside =>
          cases there : s.store.vectors[ref]? with
          | some items =>
              rw [there] at inside
              exact .ok (.nil s) ⟨rfl, ref, items, rfl, there, inside.1, inside.2, rfl⟩
          | none =>
              rw [there] at inside
              exact absurd inside.2 (Nat.not_lt_zero _)
      next => exact .signal _ _ s
  | _ => exact .leave _ s

end Place

/-! ## Place forms -/

/-- A form that names a place. -/
inductive PlaceForm where
  /-- The name of a variable. -/
  | symbol (name : String)
  /-- `(car LIST)` -/
  | car (list : Value)
  /-- `(cdr LIST)` -/
  | cdr (list : Value)
  /-- `(aref VECTOR INDEX)` -/
  | aref (vector index : Value)
  /-- `(elt SEQUENCE INDEX)` -/
  | elt (sequence index : Value)
  /-- `(nth INDEX LIST)` -/
  | nth (index list : Value)

namespace PlaceForm

/-- The name of the variable or of the function that reads the place. -/
def name : PlaceForm → String
  | .symbol name => name
  | .car _ => "car"
  | .cdr _ => "cdr"
  | .aref _ _ => "aref"
  | .elt _ _ => "elt"
  | .nth _ _ => "nth"

/-- The forms in a place form, from left to right. -/
def subforms : PlaceForm → List Value
  | .symbol _ => []
  | .car list | .cdr list => [list]
  | .aref first second | .elt first second | .nth first second => [first, second]

/-- A value is the form: a symbol, or a list of the function and the subforms. -/
def IsWritten (st : Store) (P : PlaceForm) (form : Value) : Prop :=
  match P with
  | .symbol name => form.symbolName? = some name
  | _ => st.Lists form (.symbol P.name :: P.subforms)

/-- What is taken for granted of values: a pair is in the store, and the list of an element is
proper. -/
def Takes (st : Store) : PlaceForm → List Value → Prop
  | .car _, [.cons ref] | .cdr _, [.cons ref] => ref < st.pairs.size
  | .elt _ _, [.cons ref, _] | .nth _ _, [_, .cons ref] => ∃ items, st.Lists (.cons ref) items
  | _, _ => True

/-- The place that a form names, given the values of its subforms. -/
inductive Names (st : Store) : PlaceForm → List Value → Place → Prop where
  | symbol (name : String) : Names st (.symbol name) [] (.var name)
  | car {list : Value} {ref : Nat} : ref < st.pairs.size →
      Names st (.car list) [.cons ref] (.car (.cons ref))
  | cdr {list : Value} {ref : Nat} : ref < st.pairs.size →
      Names st (.cdr list) [.cons ref] (.cdr (.cons ref))
  | aref {vector index : Value} {ref : Nat} {items : Array Value} {n : Int64} :
      st.vectors[ref]? = some items → 0 ≤ n.toInt → n.toInt.toNat < items.size →
        Names st (.aref vector index) [.vector ref, .int n] (.slot (.vector ref) n.toInt.toNat)
  | eltVector {sequence index : Value} {ref : Nat} {items : Array Value} {n : Int64} :
      st.vectors[ref]? = some items → 0 ≤ n.toInt → n.toInt.toNat < items.size →
        Names st (.elt sequence index) [.vector ref, .int n] (.slot (.vector ref) n.toInt.toNat)
  | eltList {sequence index list : Value} {items : List Value} {ref : Nat} {n : Int64} :
      st.Lists list items → 0 ≤ n.toInt → st.after n.toInt.toNat list = .cons ref →
        Names st (.elt sequence index) [list, .int n] (.car (.cons ref))
  | nth {index form list : Value} {items : List Value} {ref : Nat} {n : Int64} :
      st.Lists list items → 0 ≤ n.toInt → st.after n.toInt.toNat list = .cons ref →
        Names st (.nth index form) [.int n, list] (.car (.cons ref))

end PlaceForm

end Forms

namespace Store

variable {st st' : Store} {v new : Value} {items : List Value} {k ref : Nat}

/-- Nothing but a pair comes after a value. -/
theorem exists_pair_of_after (found : st.after k v = .cons ref) : ∃ pair, v = .cons pair := by
  cases v with
  | cons pair => exact ⟨pair, rfl⟩
  | _ => cases k <;> cases found

/-- Where a proper list is not over yet, the rest of it is a proper list. -/
theorem Lists.after_cons (lists : st.Lists v items) (found : st.after k v = .cons ref) :
    k < items.length ∧ st.Lists (.cons ref) (items.drop k) := by
  induction lists generalizing k with
  | nil => cases k <;> cases found
  | @cons ref' p items there rest ih =>
      cases k with
      | zero =>
          cases found
          exact ⟨Nat.zero_lt_succ _, .cons there rest⟩
      | succ k =>
          rw [after, Value.isCons, if_pos rfl, cdr_of_there there] at found
          obtain ⟨inside, tail⟩ := ih found
          exact ⟨Nat.succ_lt_succ inside, tail⟩

theorem cdr_cons (st : Store) (k : Nat) :
    st.cdr (.cons k) = (st.pairs[k]?.map Pair.cdr).getD .nil := by
  show Option.elim _ _ _ = _
  cases st.pairs[k]? <;> rfl

/-- A list is followed in the same way where its pairs are. -/
theorem Lists.after_mono (lists : st.Lists v items) (kept : st.KeptIn st') (k : Nat) :
    st'.after k v = st.after k v := by
  induction lists generalizing k with
  | nil => cases k <;> rfl
  | @cons ref p items there _ ih =>
      cases k with
      | zero => rfl
      | succ k => rw [after, after, cdr_of_there there, cdr_of_there (kept _ _ there), ih]

@[simp]
theorem cdr_setCar (st : Store) (ref : Nat) (new v : Value) :
    (st.setCar (.cons ref) new).cdr v = st.cdr v := by
  cases v with
  | cons k => rw [cdr_cons, cdr_cons, cdr?_setCar]
  | _ => rfl

@[simp]
theorem after_setCar (st : Store) (ref : Nat) (new : Value) (k : Nat) (v : Value) :
    (st.setCar (.cons ref) new).after k v = st.after k v := by
  induction k generalizing v with
  | zero => rfl
  | succ k ih => rw [after, after, cdr_setCar, ih]

/-- A list keeps its length when an element is exchanged. -/
theorem Lists.setCar (lists : st.Lists v items) (ref : Nat) (new : Value) :
    ∃ items', (st.setCar (.cons ref) new).Lists v items' ∧ items'.length = items.length := by
  induction lists with
  | nil => exact ⟨[], .nil, rfl⟩
  | @cons k p items there _ ih =>
      obtain ⟨items', rest, length⟩ := ih
      have same := st.cdr?_setCar ref k new
      rw [there, Option.map_some, Option.map_eq_some_iff] at same
      obtain ⟨q, there', parts⟩ := same
      exact ⟨q.car :: items', .cons there' (parts ▸ rest), congrArg (· + 1) length⟩

theorem Lists.lt_size (lists : st.Lists (.cons ref) items) : ref < st.pairs.size := by
  cases lists with
  | cons there _ => exact (Array.getElem?_eq_some_iff.mp there).1

end Store

namespace Forms.PlaceForm

variable {P : PlaceForm} {st st' : Store} {values : List Value} {place : Place}

theorem Names.isThere (names : P.Names st values place) : place.IsThere st := by
  cases names with
  | symbol name => exact .var name
  | car there => exact .car there
  | cdr there => exact .cdr there
  | aref there _ inside => exact .slot there inside
  | eltVector there _ inside => exact .slot there inside
  | eltList lists _ found => exact .car (lists.after_cons found).2.lt_size
  | nth lists _ found => exact .car (lists.after_cons found).2.lt_size

/-- An element of a list is found by following the list. -/
def OnList : PlaceForm → Place → Prop
  | .elt _ _, .car _ | .nth _ _, _ => True
  | _, _ => False

/-- Unless it is found by following a list, a place is named by the same values forever. -/
theorem Names.of_retains (names : P.Names st values place) (retains : st.Retains st')
    (direct : ¬P.OnList place) : P.Names st' values place := by
  cases names with
  | symbol name => exact .symbol name
  | car there => exact .car (Nat.lt_of_lt_of_le there retains.pairs_le)
  | cdr there => exact .cdr (Nat.lt_of_lt_of_le there retains.pairs_le)
  | aref there natural inside =>
      obtain ⟨items', there', size⟩ := retains.vectors _ _ there
      exact .aref there' natural (size ▸ inside)
  | eltVector there natural inside =>
      obtain ⟨items', there', size⟩ := retains.vectors _ _ there
      exact .eltVector there' natural (size ▸ inside)
  | eltList _ _ _ => exact absurd trivial direct
  | nth _ _ _ => exact absurd trivial direct

theorem Names.of_enlargedTo (names : P.Names st values place) (enlarged : st.EnlargedTo st') :
    P.Names st' values place := by
  by_cases onList : P.OnList place
  · cases names with
    | eltList lists natural found =>
        exact .eltList (lists.mono enlarged.pairs) natural
          ((lists.after_mono enlarged.pairs _).trans found)
    | nth lists natural found =>
        exact .nth (lists.mono enlarged.pairs) natural
          ((lists.after_mono enlarged.pairs _).trans found)
    | _ => exact onList.elim
  · exact names.of_retains enlarged.retains onList

/-- An element that is exchanged stays where it is. -/
theorem Names.put {frame : Nat} {new : Value} {s u : Session} (names : P.Names s.store values place)
    (puts : place.PutsInto frame new s u) : P.Names u.store values place := by
  by_cases onList : P.OnList place
  · cases names with
    | eltList lists natural found =>
        cases puts
        obtain ⟨items', lists', -⟩ := lists.setCar _ new
        exact .eltList lists' natural ((Store.after_setCar ..).trans found)
    | nth lists natural found =>
        cases puts
        obtain ⟨items', lists', -⟩ := lists.setCar _ new
        exact .nth lists' natural ((Store.after_setCar ..).trans found)
    | _ => exact onList.elim
  · refine names.of_retains ?_ onList
    cases puts with
    | bound _ => exact (Store.KeepsObjects.defineIn _ _ new).retains _
    | inBuffer _ _ _ => exact .refl _
    | globally _ _ _ => exact .refl _
    | @car ref => exact (Store.KeepsObjects.setCar (.cons ref) new).retains s.store
    | @cdr ref => exact (Store.KeepsObjects.setCdr (.cons ref) new).retains s.store
    | @slot ref i => exact (Store.KeepsObjects.setItem (.vector ref) i new).retains s.store

/-! ## Resolving -/

variable {I : Interp} {frame level : Nat} {s : Session} {form : Value}

/-- A place form is resolved by evaluating its subforms and checking what they give. -/
def resolve (I : Interp) (frame : Nat) : PlaceForm → Eval Place
  | .symbol name => return .var name
  | .car list => do return .car (← Place.pair (← I.eval list frame))
  | .cdr list => do return .cdr (← Place.pair (← I.eval list frame))
  | .aref vector index => do
    let seq ← I.eval vector frame
    let n ← integer (← I.eval index frame)
    Place.element seq n
  | .elt sequence index => do
    let seq ← I.eval sequence frame
    let n ← integer (← I.eval index frame)
    match seq with
    | .vector _ => Place.element seq n
    | list => Place.cell list n
  | .nth index list => do
    let n ← integer (← I.eval index frame)
    let v ← I.eval list frame
    Place.cell v n

theorem resolve_eq (written : P.IsWritten s.store form) (I : Interp) (frame fuel : Nat) :
    Place.resolve I frame (fuel + 1) form s = P.resolve I frame s := by
  have call {head : String} {subforms : List Value}
      (lists : s.store.Lists form (.symbol head :: subforms)) :
      form.symbolName? = none ∧ (s.store.car form).symbolName? = some head ∧
        s.store.list? (s.store.cdr form) = some subforms := by
    obtain ⟨⟨ref, rfl⟩, front, tail⟩ := lists.isList
    exact ⟨rfl, congrArg Value.symbolName? front, tail⟩
  cases P with
  | symbol name =>
      have named : form.symbolName? = some name := written
      rw [Place.resolve, named]
      rfl
  | _ =>
      obtain ⟨noSymbol, head, args⟩ := call written
      rw [Place.resolve, noSymbol]
      refine (bind_store _ s).trans ?_
      rw [head, args]
      simp only [name]
      rfl

/-- A part of a pair is named by the form of the pair. -/
theorem course_part (part : Value → Place) (list : Value) :
    Course frame s [list]
      (fun values t place u => u = t ∧ ∃ ref, values = [.cons ref] ∧ place = part (.cons ref))
      ((do return part (← Place.pair (← (Interp.ofLevel level).eval list frame))) s) := by
  refine .bind_last (.eval level list frame s) fun values t v _ given => ?_
  subst given
  refine .bind_first (Place.course_pair v t) fun w isPair => ?_
  obtain ⟨rfl, ref, rfl⟩ := isPair
  exact .ok (.nil t) ⟨rfl, ref, rfl, rfl⟩

/-- A sequence is evaluated before an index into it, which must be an integer. -/
theorem course_indexed {R : List Value → Session → Place → Session → Prop}
    {f : Value → Int64 → Eval Place} (sequence index : Value)
    (next : ∀ v n t, InTurn frame s [sequence, index] [v, .int n] t →
      Course frame t [] (fun _ => R [v, .int n]) (f v n t)) :
    Course frame s [sequence, index] R
      ((do
        let v ← (Interp.ofLevel level).eval sequence frame
        let n ← integer (← (Interp.ofLevel level).eval index frame)
        f v n) s) := by
  refine .bind [sequence] (.eval level sequence frame s) fun values t v inTurn given => ?_
  subst given
  refine .bind_last (.eval level index frame t) fun more t w inTurn' given => ?_
  subst given
  refine .bind_first (.integer w t) fun n isInt => ?_
  subst isInt
  exact next v n t (inTurn.append inTurn')

/-- An element of what an `elt` reads from is found by its index, in a vector or in a list. -/
theorem course_elt {sequence index v : Value} {n : Int64} {t : Session}
    (takes : (PlaceForm.elt sequence index).Takes t.store [v, .int n]) :
    Course frame t []
      (fun _ t' place u => u = t' ∧ (PlaceForm.elt sequence index).Names t'.store [v, .int n] place)
      ((match v with
        | .vector _ => Place.element v n
        | list => Place.cell list n) t) := by
  cases v with
  | vector ref =>
      refine (Place.course_element (.vector ref) n t).mono ?_
      rintro _ t place _ none ⟨rfl, ref, items, same, there, natural, inside, rfl⟩
      cases none
      cases same
      exact ⟨rfl, .eltVector there natural inside⟩
  | cons pair =>
      obtain ⟨items, lists⟩ := takes
      refine (Place.course_cell (.cons pair) n t).mono ?_
      rintro _ t place _ none ⟨rfl, ref, natural, found, rfl⟩
      cases none
      exact ⟨rfl, .eltList lists natural found⟩
  | _ =>
      refine (Place.course_cell _ n t).mono ?_
      rintro _ t place _ - ⟨-, ref, -, found, -⟩
      obtain ⟨_, same⟩ := Store.exists_pair_of_after found
      cases same

/-- What a form names is found, with its subforms evaluated in turn, or it is refused. -/
theorem course_resolve
    (takes : ∀ values t, InTurn frame s P.subforms values t → P.Takes t.store values) :
    Course frame s P.subforms (fun values t place u => u = t ∧ P.Names t.store values place)
      (P.resolve (.ofLevel level) frame s) := by
  cases P with
  | symbol name => exact .ok (.nil s) ⟨rfl, .symbol name⟩
  | car list =>
      refine (course_part .car list).mono ?_
      rintro _ t _ _ inTurn ⟨rfl, ref, rfl, rfl⟩
      exact ⟨rfl, .car (takes _ _ inTurn)⟩
  | cdr list =>
      refine (course_part .cdr list).mono ?_
      rintro _ t _ _ inTurn ⟨rfl, ref, rfl, rfl⟩
      exact ⟨rfl, .cdr (takes _ _ inTurn)⟩
  | aref vector index =>
      refine course_indexed vector index fun v n t _ => (Place.course_element v n t).mono ?_
      rintro _ t place _ none ⟨rfl, ref, items, rfl, there, natural, inside, rfl⟩
      cases none
      exact ⟨rfl, .aref there natural inside⟩
  | elt sequence index =>
      exact course_indexed sequence index fun v n t inTurn => course_elt (takes _ t inTurn)
  | nth index list =>
      refine .bind [index] (.eval level index frame s) fun values t w inTurn given => ?_
      subst given
      refine .bind_first (.integer w t) fun n isInt => ?_
      subst isInt
      refine .bind_last (.eval level list frame t) fun more t v inTurn' given => ?_
      subst given
      have taken := takes _ t (inTurn.append inTurn')
      refine (Place.course_cell v n t).mono ?_
      rintro _ t place _ none ⟨rfl, ref, natural, found, rfl⟩
      cases none
      obtain ⟨pair, rfl⟩ := Store.exists_pair_of_after found
      obtain ⟨items, lists⟩ := taken
      exact ⟨rfl, .nth lists natural found⟩

end Forms.PlaceForm

/-! ## Reading by the function -/

namespace Primitives

variable {s : Session} {k ref : Nat} {list : Value} {items : List Value} {n : Int64}

theorem drop_eq (found : s.store.after k list = .cons ref) : drop k list s = .ok (.cons ref) s := by
  induction k generalizing list with
  | zero =>
      cases found
      rfl
  | succ k ih =>
      obtain ⟨pair, rfl⟩ := Store.exists_pair_of_after found
      exact (bind_of_ok _ (show cdrOf (.cons pair) s = .ok _ s from rfl)).trans (ih found)

theorem nth_eq (found : s.store.after n.toInt.toNat list = .cons ref) :
    nth n list s = .ok (s.store.car (.cons ref)) s := by
  unfold nth
  exact (bind_of_ok _ (drop_eq found)).trans rfl

theorem aref_eq {items : Array Value} {v : Value} (there : s.store.vectors[ref]? = some items)
    (natural : 0 ≤ n.toInt) (item : items[n.toInt.toNat]? = some v) :
    aref (.vector ref) (.int n) s = .ok v s := by
  have found : (((s.store.items? (.vector ref)).getD #[])[n.toInt.toNat]? : Option Value) = some v := by
    rw [Store.items?, there]
    exact item
  unfold aref
  refine (bind_of_ok _ (show integer (.int n) s = .ok n s from rfl)).trans ?_
  rw [if_neg (Int.not_lt.mpr natural)]
  refine (bind_store _ s).trans ?_
  refine (bind_of_ok _ rfl).trans ?_
  rw [found]
  rfl

theorem elt_eq (I : Interp) (lists : s.store.Lists list items) (natural : 0 ≤ n.toInt)
    (found : s.store.after n.toInt.toNat list = .cons ref) :
    elt I [list, .int n] s = .ok (s.store.car (.cons ref)) s := by
  obtain ⟨pair, rfl⟩ := Store.exists_pair_of_after found
  obtain ⟨inside, -⟩ := lists.after_cons found
  have length : listLength (.cons pair) s = .ok items.length s := by
    unfold listLength properList
    refine (bind_of_ok (m := fun s => _) _ ?_).trans rfl
    rw [lists.list?_eq]
  unfold elt binary
  refine (bind_of_ok _ (show exactly "elt" _ 2 s = .ok () s from rfl)).trans ?_
  refine (bind_of_ok _ (show integer (.int n) s = .ok n s from rfl)).trans ?_
  refine (bind_of_ok _ length).trans ?_
  rw [if_neg (by omega)]
  exact nth_eq found

end Primitives

namespace Forms.PlaceForm

variable {P : PlaceForm} {s : Session} {frame : Nat} {values : List Value} {place : Place}

/-- A place has a value: that of the variable, or what the function returns for the values of the
subforms. -/
def Reads (frame : Nat) (values : List Value) (s : Session) (v : Value) : PlaceForm → Prop
  | .symbol name => s.valueIn? name frame = some v
  | P => ∀ I, callPrimitive I P.name values s = .ok v s

/-- The function returns what is at the place. -/
theorem Names.reads {v : Value} (names : P.Names s.store values place)
    (found : place.content? frame s = some v) : P.Reads frame values s v := by
  have read := Place.read_eq found
  have listed (name : String) {p : Primitive} (there : Primitives.lists.lookup name = some p)
      (I : Interp) : callPrimitive I name values s = p I values s := by
    rw [callPrimitive_of_primitive? (primitive?_of_lists there)]
  have sequence (name : String) {p : Primitive}
      (there : Primitives.sequences.lookup name = some p) (I : Interp) :
      callPrimitive I name values s = p I values s := by
    rw [callPrimitive_of_primitive? (primitive?_of_sequences there)]
  have item {ref i : Nat} {items : Array Value} (there : s.store.vectors[ref]? = some items)
      (found : (Place.slot (.vector ref) i).content? frame s = some v) : items[i]? = some v := by
    rwa [Place.content?, there, Option.bind_some] at found
  cases names with
  | symbol name => exact found
  | car there => exact fun I => (listed "car" rfl I).trans read
  | cdr there => exact fun I => (listed "cdr" rfl I).trans read
  | aref there natural inside =>
      intro I
      refine (sequence "aref" rfl I).trans ?_
      exact Primitives.aref_eq there natural (item there found)
  | eltVector there natural inside =>
      intro I
      refine (sequence "elt" rfl I).trans ?_
      exact Primitives.aref_eq there natural (item there found)
  | eltList lists natural found' =>
      intro I
      refine (sequence "elt" rfl I).trans ?_
      exact (Primitives.elt_eq I lists natural found').trans read
  | nth lists natural found' =>
      intro I
      refine (listed "nth" rfl I).trans ?_
      exact (Primitives.nth_eq found').trans read

end Forms.PlaceForm

end EditorLisp
