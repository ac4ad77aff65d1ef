import EditorLisp.Forms.Place
import EditorLisp.Proofs.Forms.Assignment
import EditorLisp.Proofs.Store.Environment
import EditorLisp.Proofs.Store.Tree

/-!
# What places hold

A place holds a value, and one that is put there is the only thing that changes: it is read back
from the same place, and every other place holds what it did.  A variable is the hardest place to
tell.  It may be bound in a frame, local to the current buffer, about to become so when it is set,
or global, and assignment and look-up have to go to the same one of these.
-/

namespace EditorLisp

/-! ## Bindings in frames -/

namespace Store

variable {st st' : Store} {holder i fuel : Nat} {name other : String} {old value : Value}

theorem binderFrom_of_frames (same : st'.frames = st.frames) (name : String) (fuel i : Nat) :
    st'.binderFrom name fuel i = st.binderFrom name fuel i := by
  induction fuel generalizing i with
  | zero => rfl
  | succ fuel ih =>
      rw [binderFrom_succ, binderFrom_succ, varIn?, varIn?, parent?, parent?, same]
      congr 1
      exact congrArg _ (funext ih)

theorem binder?_of_frames (same : st'.frames = st.frames) (i : Nat) (name : String) :
    st'.binder? i name = st.binder? i name :=
  binderFrom_of_frames same name _ i

/-- After an assignment the same frame is found, with the new value. -/
theorem binderFrom_defineIn (there : holder < st.frames.size)
    (found : st.binderFrom name fuel i = some (holder, old)) (value : Value) :
    (st.defineIn holder name value).binderFrom name fuel i = some (holder, value) := by
  induction fuel generalizing i with
  | zero => cases found
  | succ fuel ih =>
      rw [binderFrom_succ] at found
      rw [binderFrom_succ, varIn?_defineIn_eq there, parent?_defineIn]
      by_cases here : i = holder
      · rw [if_pos ⟨here, rfl⟩, here]
        rfl
      · rw [if_neg fun both => here both.1]
        cases bound : st.varIn? i name with
        | some w =>
            rw [bound] at found
            cases found
            exact absurd rfl here
        | none =>
            rw [bound, Option.map_none, Option.none_or] at found
            obtain ⟨parent, around, further⟩ := Option.bind_eq_some_iff.mp found
            rw [Option.map_none, Option.none_or, around, Option.bind_some]
            exact ih further

theorem binderFrom_defineIn_of_ne (there : holder < st.frames.size) (different : other ≠ name)
    (value : Value) (fuel i : Nat) :
    (st.defineIn holder name value).binderFrom other fuel i = st.binderFrom other fuel i := by
  induction fuel generalizing i with
  | zero => rfl
  | succ fuel ih =>
      rw [binderFrom_succ, binderFrom_succ, varIn?_defineIn_eq there, parent?_defineIn,
        if_neg fun both => different both.2]
      congr 1
      exact congrArg _ (funext ih)

theorem lt_size_of_binderFrom (found : st.binderFrom name fuel i = some (holder, old)) :
    holder < st.frames.size := by
  induction fuel generalizing i with
  | zero => cases found
  | succ fuel ih =>
      rw [binderFrom_succ] at found
      cases bound : st.varIn? i name with
      | some w =>
          rw [bound] at found
          cases found
          exact lt_size_of_varIn? bound
      | none =>
          rw [bound, Option.map_none, Option.none_or] at found
          obtain ⟨parent, -, further⟩ := Option.bind_eq_some_iff.mp found
          exact ih further

end Store

/-! ## Parts of pairs and vectors -/

namespace Store

theorem car?_setCar (st : Store) (ref k : Nat) (v : Value) :
    (st.setCar (.cons ref) v).pairs[k]?.map Pair.car =
      st.pairs[k]?.map fun p => if ref = k then v else p.car := by
  show Option.map Pair.car (st.pairs.modify ref _)[k]? = _
  rw [Array.getElem?_modify]
  split <;> cases st.pairs[k]? <;> rfl

theorem cdr?_setCar (st : Store) (ref k : Nat) (v : Value) :
    (st.setCar (.cons ref) v).pairs[k]?.map Pair.cdr = st.pairs[k]?.map Pair.cdr := by
  show Option.map Pair.cdr (st.pairs.modify ref _)[k]? = _
  rw [Array.getElem?_modify]
  split <;> cases st.pairs[k]? <;> rfl

theorem car?_setCdr (st : Store) (ref k : Nat) (v : Value) :
    (st.setCdr (.cons ref) v).pairs[k]?.map Pair.car = st.pairs[k]?.map Pair.car := by
  show Option.map Pair.car (st.pairs.modify ref _)[k]? = _
  rw [Array.getElem?_modify]
  split <;> cases st.pairs[k]? <;> rfl

theorem cdr?_setCdr (st : Store) (ref k : Nat) (v : Value) :
    (st.setCdr (.cons ref) v).pairs[k]?.map Pair.cdr =
      st.pairs[k]?.map fun p => if ref = k then v else p.cdr := by
  show Option.map Pair.cdr (st.pairs.modify ref _)[k]? = _
  rw [Array.getElem?_modify]
  split <;> cases st.pairs[k]? <;> rfl

theorem item?_setItem_self {st : Store} {ref i : Nat} {items : Array Value}
    (there : st.vectors[ref]? = some items) (inside : i < items.size) (v : Value) :
    (st.setItem (.vector ref) i v).vectors[ref]?.bind (·[i]?) = some v := by
  show Option.bind (st.vectors.modify ref _)[ref]? _ = _
  rw [Array.getElem?_modify, if_pos rfl, there, Option.map_some, Option.bind_some]
  exact Array.getElem?_setIfInBounds_self_of_lt inside

theorem item?_setItem_of_ne (st : Store) {ref i k j : Nat} (elsewhere : ref = k → i ≠ j)
    (v : Value) :
    (st.setItem (.vector ref) i v).vectors[k]?.bind (·[j]?) = st.vectors[k]?.bind (·[j]?) := by
  show Option.bind (st.vectors.modify ref _)[k]? _ = _
  rw [Array.getElem?_modify]
  split
  next same =>
      cases st.vectors[k]? with
      | none => rfl
      | some items => exact Array.getElem?_setIfInBounds_ne (elsewhere same)
  next => rfl

end Store

/-! ## Values of variables -/

namespace Session

variable {s t : Session} {name other : String} {value : Value} {frame i : Nat}

/-- The frame that an assignment to a variable goes to. -/
def holder? (s : Session) (frame : Nat) (name : String) : Option Nat :=
  if s.isSpecial name then none else (s.store.binder? frame name).map Prod.fst

theorem holder?_eq_some_iff :
    s.holder? frame name = some i ↔
      s.isSpecial name = false ∧ ∃ old, s.store.binder? frame name = some (i, old) := by
  unfold holder?
  cases s.isSpecial name <;> simp

theorem valueIn?_of_holder?_none (unbound : s.holder? frame name = none) :
    s.valueIn? name frame = s.outerValue? name := by
  unfold valueIn? Store.lookupIn?
  unfold holder? at unbound
  cases special : s.isSpecial name with
  | true => rfl
  | false =>
      rw [special, if_neg Bool.false_ne_true, Option.map_eq_none_iff] at unbound
      rw [unbound]
      rfl

/-- The value of a variable depends on where it is bound, and on its value outside of frames. -/
theorem valueIn?_congr (special : t.isSpecial name = s.isSpecial name)
    (bound : t.store.binder? frame name = s.store.binder? frame name)
    (outer : t.outerValue? name = s.outerValue? name) :
    t.valueIn? name frame = s.valueIn? name frame := by
  unfold valueIn? Store.lookupIn?
  rw [special, bound, outer]

theorem valueIn?_of_frames (s : Session) (store : Store) (same : store.frames = s.store.frames)
    (name : String) (frame : Nat) :
    ({ s with store } : Session).valueIn? name frame = s.valueIn? name frame :=
  valueIn?_congr rfl (Store.binder?_of_frames same frame name) rfl

theorem localIn?_eq_none {b : Buffer} (current : s.workspace.current? = some b)
    (isGlobal : b.locals.contains name = false) : s.localIn? name = none := by
  rw [localIn?, current, Option.filter_some, isGlobal]
  rfl

end Session

/-! ## Contents of places -/

namespace Forms.Place

variable {place other : Place} {frame : Nat} {s t u : Session} {st st' : Store} {new v : Value}

/-- The value at a place, if there is one. -/
def content? (place : Place) (frame : Nat) (s : Session) : Option Value :=
  match place with
  | .var name => s.valueIn? name frame
  | .car (.cons ref) => s.store.pairs[ref]?.map Pair.car
  | .cdr (.cons ref) => s.store.pairs[ref]?.map Pair.cdr
  | .slot (.vector ref) i => s.store.vectors[ref]?.bind (·[i]?)
  | _ => none

/-- The pair or the element is in the store. -/
inductive IsThere (st : Store) : Place → Prop where
  | var (name : String) : IsThere st (.var name)
  | car {ref : Nat} : ref < st.pairs.size → IsThere st (.car (.cons ref))
  | cdr {ref : Nat} : ref < st.pairs.size → IsThere st (.cdr (.cons ref))
  | slot {ref i : Nat} {items : Array Value} :
      st.vectors[ref]? = some items → i < items.size → IsThere st (.slot (.vector ref) i)

theorem IsThere.of_retains (isThere : place.IsThere st) (retains : st.Retains st') :
    place.IsThere st' := by
  cases isThere with
  | var name => exact .var name
  | car there => exact .car (Nat.lt_of_lt_of_le there retains.pairs_le)
  | cdr there => exact .cdr (Nat.lt_of_lt_of_le there retains.pairs_le)
  | slot there inside =>
      obtain ⟨items', there', size⟩ := retains.vectors _ _ there
      exact .slot there' (size ▸ inside)

/-- A session with a new value at a place, that has nothing else new: in the frame that binds the
variable, in the current buffer if the variable is local there or becomes so when it is set, as
its global value, or in a part of a pair or of a vector. -/
inductive PutsInto (frame : Nat) (new : Value) (s : Session) : Place → Session → Prop where
  | bound {name : String} {i : Nat} : s.holder? frame name = some i →
      PutsInto frame new s (.var name) { s with store := s.store.defineIn i name new }
  | inBuffer {name : String} {b : Buffer} : s.holder? frame name = none →
      s.workspace.current? = some b →
        (s.autoLocal.contains name || b.locals.contains name) = true →
          PutsInto frame new s (.var name) (s.setLocal b.id name new)
  | globally {name : String} {b : Buffer} : s.holder? frame name = none →
      s.workspace.current? = some b →
        (s.autoLocal.contains name || b.locals.contains name) = false →
          PutsInto frame new s (.var name) (s.setGlobal name new)
  | car {ref : Nat} : ref < s.store.pairs.size →
      PutsInto frame new s (.car (.cons ref)) { s with store := s.store.setCar (.cons ref) new }
  | cdr {ref : Nat} : ref < s.store.pairs.size →
      PutsInto frame new s (.cdr (.cons ref)) { s with store := s.store.setCdr (.cons ref) new }
  | slot {ref i : Nat} {items : Array Value} : s.store.vectors[ref]? = some items →
      i < items.size →
        PutsInto frame new s (.slot (.vector ref) i)
          { s with store := s.store.setItem (.vector ref) i new }

/-- What was put into a place is there. -/
theorem PutsInto.content?_eq (puts : place.PutsInto frame new s u)
    (inOrder : s.workspace.WellFormed) : place.content? frame u = some new := by
  cases puts with
  | bound held =>
      obtain ⟨ordinary, old, found⟩ := Session.holder?_eq_some_iff.mp held
      refine Session.valueIn?_of_lookupIn? ordinary ?_
      have found' := Store.binderFrom_defineIn (Store.lt_size_of_binderFrom found) found new
      exact congrArg (Option.map Prod.snd) found'
  | inBuffer unbound current _ =>
      refine (Session.valueIn?_of_holder?_none (s := s.setLocal ..) unbound).trans ?_
      exact (Session.outerValue?_setLocal inOrder.toConsistent current).trans (if_pos rfl)
  | globally unbound current isGlobal =>
      have noLocal := Session.localIn?_eq_none current (Bool.or_eq_false_iff.mp isGlobal).2
      refine (Session.valueIn?_of_holder?_none (s := s.setGlobal ..) unbound).trans ?_
      exact (Session.outerValue?_setGlobal noLocal).trans (if_pos rfl)
  | car there =>
      refine (Store.car?_setCar ..).trans ?_
      rw [Array.getElem?_eq_getElem there, Option.map_some, if_pos rfl]
  | cdr there =>
      refine (Store.cdr?_setCdr ..).trans ?_
      rw [Array.getElem?_eq_getElem there, Option.map_some, if_pos rfl]
  | slot there inside => exact Store.item?_setItem_self there inside new

/-- A session with other values of one variable only. -/
theorem content?_of_variables {name : String} (different : other ≠ .var name)
    (pairs : u.store.pairs = s.store.pairs) (vectors : u.store.vectors = s.store.vectors)
    (values : ∀ x ≠ name, u.valueIn? x frame = s.valueIn? x frame) :
    other.content? frame u = other.content? frame s := by
  unfold content?
  split
  next x => exact values x fun same => different (same ▸ rfl)
  next => rw [pairs]
  next => rw [pairs]
  next => rw [vectors]
  next => rfl

theorem content?_setCar_of_ne {ref : Nat} (different : other ≠ .car (.cons ref)) (frame : Nat)
    (s : Session) (new : Value) :
    other.content? frame { s with store := s.store.setCar (.cons ref) new } =
      other.content? frame s := by
  unfold content?
  split
  next x => exact s.valueIn?_of_frames (s.store.setCar ..) rfl x frame
  next ref' =>
      have elsewhere : ref ≠ ref' := fun same => different (same ▸ rfl)
      refine (Store.car?_setCar ..).trans ?_
      simp only [if_neg elsewhere]
  next => exact Store.cdr?_setCar ..
  next => rfl
  next => rfl

theorem content?_setCdr_of_ne {ref : Nat} (different : other ≠ .cdr (.cons ref)) (frame : Nat)
    (s : Session) (new : Value) :
    other.content? frame { s with store := s.store.setCdr (.cons ref) new } =
      other.content? frame s := by
  unfold content?
  split
  next x => exact s.valueIn?_of_frames (s.store.setCdr ..) rfl x frame
  next => exact Store.car?_setCdr ..
  next ref' =>
      have elsewhere : ref ≠ ref' := fun same => different (same ▸ rfl)
      refine (Store.cdr?_setCdr ..).trans ?_
      simp only [if_neg elsewhere]
  next => rfl
  next => rfl

theorem content?_setItem_of_ne {ref i : Nat} (different : other ≠ .slot (.vector ref) i)
    (frame : Nat) (s : Session) (new : Value) :
    other.content? frame { s with store := s.store.setItem (.vector ref) i new } =
      other.content? frame s := by
  unfold content?
  split
  next x => exact s.valueIn?_of_frames (s.store.setItem ..) rfl x frame
  next => rfl
  next => rfl
  next ref' j =>
      refine Store.item?_setItem_of_ne _ ?_ new
      rintro rfl rfl
      exact different rfl
  next => rfl

/-- Every other place holds what it did, from wherever it is looked at. -/
theorem PutsInto.content?_of_ne (puts : place.PutsInto frame new s u)
    (inOrder : s.workspace.WellFormed) (different : other ≠ place) (frame' : Nat) :
    other.content? frame' u = other.content? frame' s := by
  cases puts with
  | bound held =>
      obtain ⟨-, old, found⟩ := Session.holder?_eq_some_iff.mp held
      have there := Store.lt_size_of_binderFrom found
      refine content?_of_variables different rfl rfl fun x other => ?_
      exact Session.valueIn?_congr rfl (Store.binderFrom_defineIn_of_ne there other new _ frame') rfl
  | inBuffer _ current _ =>
      refine content?_of_variables different rfl rfl fun x other => ?_
      refine Session.valueIn?_congr rfl rfl ?_
      exact (Session.outerValue?_setLocal inOrder.toConsistent current).trans (if_neg other.symm)
  | globally _ current isGlobal =>
      have noLocal := Session.localIn?_eq_none current (Bool.or_eq_false_iff.mp isGlobal).2
      refine content?_of_variables different rfl rfl fun x other => ?_
      refine Session.valueIn?_congr rfl rfl ?_
      exact (Session.outerValue?_setGlobal noLocal).trans (if_neg other.symm)
  | car => exact content?_setCar_of_ne different frame' s new
  | cdr => exact content?_setCdr_of_ne different frame' s new
  | slot => exact content?_setItem_of_ne different frame' s new

/-- New data change no place that there was. -/
theorem content?_of_enlargedTo (enlarged : s.store.EnlargedTo st)
    (found : place.content? frame s = some v) :
    place.content? frame { s with store := st } = some v := by
  unfold content? at found ⊢
  split at found
  next x =>
      refine (s.valueIn?_of_frames st ?_ x frame).trans found
      rw [enlarged.aside]
  next =>
      obtain ⟨p, there, rfl⟩ := Option.map_eq_some_iff.mp found
      exact Option.map_eq_some_iff.mpr ⟨p, enlarged.pairs _ _ there, rfl⟩
  next =>
      obtain ⟨p, there, rfl⟩ := Option.map_eq_some_iff.mp found
      exact Option.map_eq_some_iff.mpr ⟨p, enlarged.pairs _ _ there, rfl⟩
  next =>
      obtain ⟨items, there, item⟩ := Option.bind_eq_some_iff.mp found
      exact Option.bind_eq_some_iff.mpr ⟨items, enlarged.vectors _ _ there, item⟩
  next => cases found

end Forms.Place

end EditorLisp
