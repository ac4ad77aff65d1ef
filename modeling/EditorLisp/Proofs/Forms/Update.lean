import EditorLisp.Proofs.Forms.PlaceForm

/-!
# Updates of places

The forms that change a place evaluate the forms in them in turn, find the place when they come to
it, work out what is to be there, and put it there last.  So nothing is changed by an update that
fails, and one that succeeds changes the place alone.  It is the place that was found, though: if
a form that is evaluated later relinks the list, the form of the place names another one by then.
-/

namespace EditorLisp

open Eval Forms

/-! ## Arithmetic -/

namespace Eval.Course

variable {frame : Nat} {s : Session}

theorem number (v : Value) (s : Session) :
    Course frame s [] (fun _ t _ u => u = t ∧ True) (number v s) := by
  unfold Eval.number
  cases v.number? with
  | some x => exact .ok (.nil s) ⟨rfl, trivial⟩
  | none => exact .leave _ s

theorem fits {α : Type} (result : Option α) (s : Session) :
    Course frame s [] (fun _ t _ u => u = t ∧ True) (Primitives.fits result s) := by
  cases result with
  | some a => exact .ok (.nil s) ⟨rfl, trivial⟩
  | none => exact .leave _ s

theorem foldFloats (op : Double → Double → Double) (acc : Double) (args : List Value) :
    Course frame s [] (fun _ t _ u => u = t) (Primitives.foldFloats op acc args s) := by
  induction args generalizing acc with
  | nil => exact .ok (.nil s) rfl
  | cons v rest ih => exact .bind_first (.number v s) fun x _ => ih (op acc x)

theorem foldInts (op : Int64 → Int64 → Option Int64) (acc : Int64) (args : List Value) :
    Course frame s [] (fun _ t _ u => u = t)
      (Primitives.foldInts (fun a b => Primitives.fits (op a b)) acc args s) := by
  induction args generalizing acc with
  | nil => exact .ok (.nil s) rfl
  | cons v rest ih =>
      refine .bind_first (.integer v s) fun n _ => ?_
      exact .bind_first (.fits (op acc n) s) fun x _ => ih x

theorem sum (args : List Value) : Course frame s [] (fun _ t _ u => u = t) (Primitives.sum args s) := by
  unfold Primitives.sum
  split
  · exact foldFloats ..
  · exact foldInts ..

theorem difference (first second : Value) :
    Course frame s [] (fun _ t _ u => u = t) (Primitives.difference [first, second] s) := by
  unfold Primitives.difference
  by_cases floats : Primitives.hasFloat [first, second] = true
  · simp only [floats, if_true]
    exact .bind_first (.number first s) fun x _ => foldFloats ..
  · simp only [floats]
    exact .bind_first (.integer first s) fun n _ => foldInts ..

end Eval.Course

/-! ## Forms that update a place -/

namespace Forms

/-- A form that updates a place, with the other forms in it. -/
inductive Update where
  /-- `(setf PLACE FORM)` -/
  | setf (form : Value)
  /-- `(push ITEM PLACE)` -/
  | push (item : Value)
  /-- `(pop PLACE)` -/
  | pop
  /-- `(incf PLACE [DELTA])` -/
  | incf (delta : Option Value)
  /-- `(decf PLACE [DELTA])` -/
  | decf (delta : Option Value)

namespace Update

/-- The name in front. -/
def name : Update → String
  | .setf _ => "setf"
  | .push _ => "push"
  | .pop => "pop"
  | .incf _ => "incf"
  | .decf _ => "decf"

/-- The forms in front of the place. -/
def before : Update → List Value
  | .push item => [item]
  | _ => []

/-- The forms behind the place. -/
def after : Update → List Value
  | .setf form => [form]
  | .incf delta | .decf delta => delta.toList
  | _ => []

/-- The new content of a place, from the old one and the values of the forms before and after the
place.  A pair that it needs is made, which gives another store. -/
inductive Computes (t : Session) (old : Option Value) :
    Update → List Value → List Value → Value → Store → Prop where
  | setf {form v : Value} : Computes t old (.setf form) [] [v] v t.store
  | push {form item list : Value} : old = some list →
      Computes t old (.push form) [item] [] (t.store.cons item list).1 (t.store.cons item list).2
  | pop {ref : Nat} : old = some (.cons ref) →
      Computes t old .pop [] [] (t.store.cdr (.cons ref)) t.store
  | incf {delta : Option Value} {last : List Value} {v new : Value} : old = some v →
      Primitives.sum [v, last.headD (.int 1)] t = .ok new t →
        Computes t old (.incf delta) [] last new t.store
  | decf {delta : Option Value} {last : List Value} {v new : Value} : old = some v →
      Primitives.difference [v, last.headD (.int 1)] t = .ok new t →
        Computes t old (.decf delta) [] last new t.store

/-- What an update returns: the new content of the place, or what was popped off. -/
def result (old : Option Value) (new : Value) (u : Session) : Update → Value
  | .pop => u.store.car (old.getD .nil)
  | _ => new

/-- The forms of an update are evaluated in turn, and on the way the place is found. -/
def Evaluates (c : Update) (P : PlaceForm) (frame : Nat) (s : Session)
    (first values last : List Value) (place : Place) (t : Session) : Prop :=
  ∃ t₁ t₂, InTurn frame s c.before first t₁ ∧ InTurn frame t₁ P.subforms values t₂ ∧
    P.Names t₂.store values place ∧ InTurn frame t₂ c.after last t

/-- After its forms, an update puts what it computes into the place.  It does nothing if there is
nothing to be popped off. -/
inductive Changes (c : Update) (frame : Nat) (t : Session) (place : Place)
    (first last : List Value) : Value → Session → Prop where
  | puts {new : Value} {store : Store} {u : Session} :
      c.Computes t (place.content? frame t) first last new store →
        t.EnlargedTo { t with store } → place.PutsInto frame new { t with store } u →
          Changes c frame t place first last (c.result (place.content? frame t) new u) u
  | nothing : c = .pop → place.content? frame t = some .nil →
      Changes c frame t place first last .nil t

/-! ## Each of them -/

variable {P : PlaceForm} {frame level : Nat} {s : Session} {placeForm : Value}

/-- How an update goes that evaluates its forms and changes its place. -/
def Goes (c : Update) (P : PlaceForm) (frame : Nat) (s : Session) (o : Outcome Value) : Prop :=
  Course frame s (c.before ++ P.subforms ++ c.after)
    (fun _ t v u => ∃ first values last place,
      c.Evaluates P frame s first values last place t ∧ c.Changes frame t place first last v u) o

theorem course_ofForm (written : P.IsWritten s.store placeForm)
    (takes : ∀ values t, InTurn frame s P.subforms values t → P.Takes t.store values) :
    Course frame s P.subforms (fun values t place u => u = t ∧ P.Names t.store values place)
      (Place.ofForm (.ofLevel level) frame placeForm s) := by
  cases level with
  | zero => exact .unfinished
  | succ level =>
      have same : Place.ofForm (.ofLevel (level + 1)) frame placeForm s =
          P.resolve (.ofLevel (level + 1)) frame s :=
        PlaceForm.resolve_eq written (.ofLevel (level + 1)) frame level
      rw [same]
      exact PlaceForm.course_resolve takes

/-- A place that was found is there, whatever was evaluated since. -/
theorem isThere_of_names {t u : Session} {forms values others : List Value} {place : Place}
    (inOrder : t.workspace.WellFormed) (names : P.Names t.store values place)
    (inTurn : InTurn frame t forms others u) :
    u.workspace.WellFormed ∧ place.IsThere u.store := by
  have kept := inTurn.kept inOrder
  exact ⟨kept.wellFormed, names.isThere.of_retains kept.retains⟩

theorem goes_setf (inOrder : s.workspace.WellFormed) (written : P.IsWritten s.store placeForm)
    (takes : ∀ values t, InTurn frame s P.subforms values t → P.Takes t.store values)
    (form : Value) :
    (Update.setf form).Goes P frame s (Forms.setf (.ofLevel level) [placeForm, form] frame s) := by
  have body : Forms.setf (.ofLevel level) [placeForm, form] frame = (do
      let place ← Place.ofForm (.ofLevel level) frame placeForm
      let value ← (Interp.ofLevel level).eval form frame
      place.write frame value
      return value) := by
    rw [Forms.setf, if_neg (by simp), setfPairs]
    rfl
  rw [body]
  refine .bind P.subforms (course_ofForm written takes) fun values t place inTurn names => ?_
  refine .bind_last (.eval level form frame t) fun last t' v inTurn' given => ?_
  subst given
  obtain ⟨inOrder', isThere⟩ := isThere_of_names (inTurn.kept inOrder).wellFormed names inTurn'
  refine ((Place.course_write inOrder' isThere v).then_get fun _ => v).mono ?_
  rintro _ _ v u none ⟨⟨_, puts⟩, rfl⟩
  cases none
  exact ⟨[], values, [v], place, ⟨s, t, .nil s, inTurn, names, inTurn'⟩,
    .puts .setf (.refl t') puts⟩

theorem goes_push (inOrder : s.workspace.WellFormed) {item : Value}
    (written : ∀ first t, InTurn frame s [item] first t → P.IsWritten t.store placeForm)
    (takes : ∀ first t values t', InTurn frame s [item] first t →
      InTurn frame t P.subforms values t' → P.Takes t'.store values) :
    (Update.push item).Goes P frame s (Forms.push (.ofLevel level) [item, placeForm] frame s) := by
  have forms : (Update.push item).before ++ P.subforms ++ (Update.push item).after =
      [item] ++ P.subforms := List.append_nil _
  have arity : formArity "push" [item, placeForm] 2 (some 2) s = .ok () s := rfl
  rw [Goes, forms, Forms.push, bind_of_ok _ arity]
  refine .bind [item] (.eval level item frame s) fun first t v inTurn given => ?_
  subst given
  refine .bind_last (course_ofForm (written _ t inTurn) (takes _ t · · inTurn))
    fun values t' place inTurn' names => ?_
  have inOrder' := (inTurn'.kept (inTurn.kept inOrder).wellFormed).wellFormed
  refine .bind_first (Place.course_read names.isThere) fun old found => ?_
  have enlarged := Session.EnlargedTo.cons t' v old
  rw [bind_of_ok _ (show cons v old t' = .ok _ _ from rfl)]
  have isThere := names.isThere.of_retains (.cons t'.store v old)
  have stored : Course frame _ [] _ _ := Place.course_write
    (s := { t' with store := (t'.store.cons v old).2 }) inOrder' isThere (t'.store.cons v old).1
  refine (Course.of_enlargedTo enlarged (stored.then_get fun _ => _)).mono ?_
  rintro _ _ w u none ⟨rfl, ⟨_, puts⟩, rfl⟩
  exact ⟨[v], values, [], place, ⟨t, _, inTurn, inTurn', names, .nil _⟩,
    .puts (.push found) enlarged puts⟩

theorem goes_pop (inOrder : s.workspace.WellFormed) (written : P.IsWritten s.store placeForm)
    (takes : ∀ values t, InTurn frame s P.subforms values t → P.Takes t.store values) :
    Update.pop.Goes P frame s (Forms.pop (.ofLevel level) [placeForm] frame s) := by
  have forms : Update.pop.before ++ P.subforms ++ Update.pop.after = P.subforms :=
    List.append_nil _
  have arity : formArity "pop" [placeForm] 1 (some 1) s = .ok () s := rfl
  rw [Goes, forms, Forms.pop, bind_of_ok _ arity]
  refine .bind_last (course_ofForm written takes) fun values t place inTurn names => ?_
  have inOrder' := (inTurn.kept inOrder).wellFormed
  have evaluates : Update.pop.Evaluates P frame s [] values [] place t :=
    ⟨s, t, .nil s, inTurn, names, .nil t⟩
  refine .bind_first (Place.course_read names.isThere) fun old found => ?_
  cases old with
  | nil => exact .ok (.nil t) ⟨[], values, [], place, evaluates, .nothing rfl found⟩
  | cons ref =>
      show Course frame t [] _
        ((place.write frame (t.store.cdr (.cons ref)) >>= fun _ => car (.cons ref)) t)
      refine ((Place.course_write inOrder' names.isThere _).then_get (·.store.car (.cons ref))).mono ?_
      rintro _ _ w u none ⟨⟨_, puts⟩, rfl⟩
      cases none
      have changes := Changes.puts (.pop found) (.refl t) puts
      rw [found] at changes
      exact ⟨[], values, [], place, evaluates, changes⟩
  | _ => exact .leave _ t

section Step

variable {c : Update} {combine : List Value → Eval Value} {name : String}

/-- The common part of `incf` and `decf`. -/
theorem goes_step (inOrder : s.workspace.WellFormed) (written : P.IsWritten s.store placeForm)
    (takes : ∀ values t, InTurn frame s P.subforms values t → P.Takes t.store values)
    (delta : Option Value) (around : c.before = [] ∧ c.after = delta.toList)
    (combines : ∀ v d t, Course frame t [] (fun _ t' _ u => u = t') (combine [v, d] t))
    (computes : ∀ {t : Session} {old : Option Value} {last : List Value} {v new : Value},
      old = some v → combine [v, last.headD (.int 1)] t = .ok new t →
        c.Computes t old [] last new t.store)
    (result : ∀ old new u, c.result old new u = new) :
    c.Goes P frame s (step name combine (.ofLevel level) (placeForm :: delta.toList) frame s) := by
  -- what is done once the place and the forms after it are known
  have finish {values last : List Value} {place : Place} {t t' : Session}
      (inTurn : InTurn frame s P.subforms values t) (names : P.Names t.store values place)
      (inTurn' : InTurn frame t delta.toList last t') :
      Course frame t' []
        (fun _ t v u => ∃ first values last place,
          c.Evaluates P frame s first values last place t ∧ c.Changes frame t place first last v u)
        ((do
          let old ← place.read frame
          let new ← combine [old, last.headD (.int 1)]
          place.write frame new
          return new : Eval Value) t') := by
    obtain ⟨inOrder', isThere⟩ := isThere_of_names (inTurn.kept inOrder).wellFormed names inTurn'
    refine .bind_first (Place.course_read isThere) fun old found => ?_
    refine .bind_first (combines old _ t').again fun new combined => ?_
    refine ((Place.course_write inOrder' isThere new).then_get fun _ => new).mono ?_
    rintro _ _ w u none ⟨⟨_, puts⟩, rfl⟩
    cases none
    have changes := Changes.puts (computes found combined) (.refl t') puts
    rw [result] at changes
    have evaluates : c.Evaluates P frame s [] values last place t' := by
      rw [Evaluates, around.1, around.2]
      exact ⟨s, t, .nil s, inTurn, names, inTurn'⟩
    exact ⟨[], values, last, place, evaluates, changes⟩
  have forms : c.before ++ P.subforms ++ c.after = P.subforms ++ delta.toList := by
    rw [around.1, around.2, List.nil_append]
  rw [Goes, forms]
  cases delta with
  | none =>
      have arity : formArity name [placeForm] 1 (some 2) s = .ok () s := rfl
      rw [Option.toList_none, List.append_nil, step, bind_of_ok _ arity]
      refine .bind_last (course_ofForm written takes) fun values t place inTurn names => ?_
      exact finish inTurn names (.nil t)
  | some form =>
      have arity : formArity name [placeForm, form] 1 (some 2) s = .ok () s := rfl
      rw [Option.toList_some, step, bind_of_ok _ arity]
      refine .bind P.subforms (course_ofForm written takes) fun values t place inTurn names => ?_
      refine .bind_last (.eval level form frame t) fun last t' d inTurn' given => ?_
      subst given
      exact finish inTurn names inTurn'

end Step

/-- Every update is carried out by the special form of its name. -/
theorem exists_specialForm (c : Update) (level : Nat) (inOrder : s.workspace.WellFormed)
    (written : ∀ first t, InTurn frame s c.before first t → P.IsWritten t.store placeForm)
    (takes : ∀ first t values t', InTurn frame s c.before first t →
      InTurn frame t P.subforms values t' → P.Takes t'.store values) :
    ∃ f, specialForm? c.name = some f ∧
      c.Goes P frame s (f (.ofLevel level) (c.before ++ placeForm :: c.after) frame s) := by
  cases c with
  | setf form =>
      exact ⟨_, rfl, goes_setf inOrder (written [] s (.nil s)) (takes [] s · · (.nil s)) form⟩
  | push item => exact ⟨_, rfl, goes_push inOrder written takes⟩
  | pop => exact ⟨_, rfl, goes_pop inOrder (written [] s (.nil s)) (takes [] s · · (.nil s))⟩
  | incf delta =>
      exact ⟨_, rfl, goes_step inOrder (written [] s (.nil s)) (takes [] s · · (.nil s)) delta
        ⟨rfl, rfl⟩ (fun v d _ => .sum [v, d]) .incf fun _ _ _ => rfl⟩
  | decf delta =>
      exact ⟨_, rfl, goes_step inOrder (written [] s (.nil s)) (takes [] s · · (.nil s)) delta
        ⟨rfl, rfl⟩ (fun v d _ => .difference v d) .decf fun _ _ _ => rfl⟩

end Update

end Forms

/-! ## The whole form -/

namespace Eval

variable {c : Update} {P : PlaceForm} {frame : Nat} {s : Session} {form placeForm : Value}
  {o : Outcome Value}

theorem course_update (inOrder : s.workspace.WellFormed)
    (isForm : s.store.Lists form (.symbol c.name :: (c.before ++ placeForm :: c.after)))
    (written : ∀ first t, InTurn frame s.inside c.before first t → P.IsWritten t.store placeForm)
    (takes : ∀ first t values t', InTurn frame s.inside c.before first t →
      InTurn frame t P.subforms values t' → P.Takes t'.store values)
    (unbound : s.functions.contains c.name = false) (ends : Interp.Ends form frame s o) :
    ∃ o', o = o'.after Session.outside ∧ c.Goes P frame s.inside o' := by
  obtain ⟨least, ended⟩ := ends.eval_eq
  have ended : evalForm (.ofLevel least) form frame s = o := ended (least + 1) (Nat.le_succ least)
  by_cases room : s.depth < s.config.maxDepth
  · obtain ⟨f, special, goes⟩ := c.exists_specialForm least (s := s.inside) inOrder written takes
    rw [evalForm_special room isForm.isList unbound special, ensuring_eq] at ended
    exact ⟨_, ended.symm, goes⟩
  · have refused : evalForm (.ofLevel least) form frame s =
        signal "excessive-lisp-nesting" [.ofNat s.config.maxDepth] s := by
      unfold evalForm
      rw [if_pos (by omega)]
    rw [refused] at ended
    have enlarged := Session.EnlargedTo.list s.inside [.ofNat s.config.maxDepth]
    exact ⟨.exit (.signal _ _) _, ended.symm.trans rfl,
      .stops (.refused (List.nil_append _).symm (.nil s.inside) enlarged)⟩

/-- An update evaluates the forms in it once each, from left to right, and the place form names its
place when its subforms have been evaluated.  If all goes well, the session is the one after these
evaluations with what the update computes at that place, and nowhere else; only the empty list is
left where it is when it is popped.  The place form, with the values of its subforms, reads the new
content, unless it follows a list to a pair that a later form has moved.  In every other case no
place is written: either a form gives no value, and the update ends like that form, or something is
refused after some of the forms, and nothing but data for the refusal are new then. -/
theorem ends_update (inOrder : s.workspace.WellFormed)
    (isForm : s.store.Lists form (.symbol c.name :: (c.before ++ placeForm :: c.after)))
    (written : ∀ first t, InTurn frame s.inside c.before first t → P.IsWritten t.store placeForm)
    (takes : ∀ first t values t', InTurn frame s.inside c.before first t →
      InTurn frame t P.subforms values t' → P.Takes t'.store values)
    (unbound : s.functions.contains c.name = false) (ends : Interp.Ends form frame s o) :
    (∃ first values last place t v u,
      o = .ok v (Session.outside u) ∧ c.Evaluates P frame s.inside first values last place t ∧
        (c = .pop ∧ place.content? frame t = some .nil ∧ v = .nil ∧ u = t ∨
          ∃ new store, c.Computes t (place.content? frame t) first last new store ∧
            v = c.result (place.content? frame t) new u ∧ t.EnlargedTo { t with store } ∧
              place.PutsInto frame new { t with store } u ∧
                (∀ other ≠ place, ∀ frame', other.content? frame' u.outside =
                  other.content? frame' { t with store }) ∧
                  ((P.OnList place → P.Names t.store values place) →
                    P.Reads frame values u.outside new))) ∨
      ∃ earlier later values t, c.before ++ P.subforms ++ c.after = earlier ++ later ∧
        InTurn frame s.inside earlier values t ∧
          ((∃ next rest o', later = next :: rest ∧ Interp.Ends next frame t o' ∧
            (∀ v u, o' ≠ .ok v u) ∧ o = o'.after Session.outside) ∨
              ∃ flow u, o = .exit flow (Session.outside u) ∧ t.EnlargedTo u ∧
                ∀ place frame' w, Place.content? place frame' t = some w →
                  place.content? frame' u.outside = some w) := by
  obtain ⟨o', rfl, goes⟩ := course_update inOrder isForm written takes unbound ends
  cases goes with
  | @ok _ t u v inTurn changed =>
      left
      obtain ⟨first, values, last, place, evaluates, changes⟩ := changed
      refine ⟨first, values, last, place, t, v, u, rfl, evaluates, ?_⟩
      cases changes with
      | nothing isPop isNil => exact .inl ⟨isPop, isNil, rfl, rfl⟩
      | @puts new store _ computes enlarged puts =>
          obtain ⟨t₁, t₂, inTurn₁, inTurn₂, names, inTurn₃⟩ := id evaluates
          have inOrder₂ := (inTurn₂.kept (inTurn₁.kept inOrder).wellFormed).wellFormed
          have kept := inTurn₃.kept inOrder₂
          have content := puts.content?_eq kept.wellFormed
          refine .inr ⟨new, store, computes, rfl, enlarged, puts, fun other different frame' =>
            puts.content?_of_ne kept.wellFormed different frame', fun still => ?_⟩
          have names' : P.Names t.store values place := by
            by_cases onList : P.OnList place
            · exact still onList
            · exact names.of_retains kept.retains onList
          have names'' : P.Names u.store values place :=
            (names'.of_enlargedTo enlarged.store).put puts
          exact names''.reads (s := u.outside) content
  | stops stops =>
      right
      cases stops with
      | @form next earlier later values t o' _ split inTurn ends' fails =>
          have noValue : ∀ v u, o' ≠ .ok v u := by
            rintro v u rfl
            cases fails with
            | ok _ never => exact never
          cases fails.eq
          exact ⟨earlier, next :: later, values, t, split, inTurn,
            .inl ⟨next, later, _, rfl, ends', noValue, rfl⟩⟩
      | @refused flow earlier later values t u split inTurn enlarged =>
          refine ⟨earlier, later, values, t, split, inTurn, .inr ⟨flow, u, rfl, enlarged, ?_⟩⟩
          intro place frame' w found
          have found' := Place.content?_of_enlargedTo enlarged.store found
          rwa [← enlarged.aside] at found'
  | unfinished => exact absurd rfl ends.choose_spec.2

end Eval

/-! ## An update, a list that is relinked, and nothing to pop -/

/-- The pairs of the form `(setf (nth 1 (quote LIST)) 9)`, in which `LIST` is `(1 2 3)`. -/
def Store.updating : Store where
  pairs := #[⟨.int 3, .nil⟩, ⟨.int 2, .cons 0⟩, ⟨.int 1, .cons 1⟩, ⟨.cons 2, .nil⟩,
    ⟨.symbol "quote", .cons 3⟩, ⟨.cons 4, .nil⟩, ⟨.int 1, .cons 5⟩, ⟨.symbol "nth", .cons 6⟩,
    ⟨.int 9, .nil⟩, ⟨.cons 7, .cons 8⟩, ⟨.symbol "setf", .cons 9⟩]

/-- The second element is 9 afterwards. -/
theorem Eval.ends_update_nth :
    let s : Session := { store := .updating }
    let c := Update.setf (.int 9)
    let P := PlaceForm.nth (.int 1) (.cons 4)
    s.workspace.WellFormed ∧
      s.store.Lists (.cons 10) (.symbol c.name :: (c.before ++ .cons 7 :: c.after)) ∧
        (∀ first t, InTurn 0 s.inside c.before first t → P.IsWritten t.store (.cons 7)) ∧
          (∀ first t values t', InTurn 0 s.inside c.before first t →
            InTurn 0 t P.subforms values t' → P.Takes t'.store values) ∧
            s.functions.contains c.name = false ∧
              ∃ v u, Interp.Ends (.cons 10) 0 s (.ok v u) ∧
                P.Reads 0 [.int 1, .cons 2] u (.int 9) := by
  intro s c P
  have isForm : s.store.Lists (.cons 10) [.symbol "setf", .cons 7, .int 9] :=
    .cons (p := ⟨.symbol "setf", .cons 9⟩) rfl (.cons (p := ⟨.cons 7, .cons 8⟩) rfl
      (.cons (p := ⟨.int 9, .nil⟩) rfl .nil))
  have isPlace : s.store.Lists (.cons 7) [.symbol "nth", .int 1, .cons 4] :=
    .cons (p := ⟨.symbol "nth", .cons 6⟩) rfl (.cons (p := ⟨.int 1, .cons 5⟩) rfl
      (.cons (p := ⟨.cons 4, .nil⟩) rfl .nil))
  have written : ∀ first t, InTurn 0 s.inside c.before first t → P.IsWritten t.store (.cons 7) := by
    intro first t none
    cases none
    exact isPlace
  have subforms : InTurn 0 s.inside P.subforms [.int 1, .cons 2] s.inside :=
    .cons ⟨1, rfl, nofun⟩ (.cons ⟨2, rfl, nofun⟩ (.nil _))
  have takes : ∀ first t values t', InTurn 0 s.inside c.before first t →
      InTurn 0 t P.subforms values t' → P.Takes t'.store values := by
    intro first t values t' none inTurn
    cases none
    obtain ⟨rfl, rfl⟩ := inTurn.unique subforms
    exact ⟨_, .cons (p := ⟨.int 1, .cons 1⟩) rfl (.cons (p := ⟨.int 2, .cons 0⟩) rfl
      (.cons (p := ⟨.int 3, .nil⟩) rfl .nil))⟩
  obtain ⟨v, u, ends, -⟩ : ∃ v u, Interp.Ends (.cons 10) 0 s (.ok v u) ∧ v.int? = some 9 :=
    Interp.exists_ends 3 (fun r => r.1.int?) (by decide +kernel)
  refine ⟨Workspace.wellFormed_initial, isForm, written, takes, rfl, v, u, ends, ?_⟩
  rcases ends_update Workspace.wellFormed_initial isForm written takes rfl ends with
    ⟨first, values, last, place, t, v', u', same, evaluates, changes⟩ |
      ⟨_, _, _, _, -, -, ⟨_, _, o', -, -, noValue, same⟩ | ⟨_, _, same, -⟩⟩
  · cases same
    obtain ⟨t₁, t₂, none, inTurn, names, inTurn'⟩ := evaluates
    cases none
    obtain ⟨rfl, rfl⟩ := inTurn.unique subforms
    have nine : InTurn 0 s.inside c.after [.int 9] s.inside := .cons ⟨1, rfl, nofun⟩ (.nil _)
    obtain ⟨rfl, rfl⟩ := inTurn'.unique nine
    rcases changes with ⟨isPop, -⟩ | ⟨new, store, computes, -, -, -, -, reads⟩
    · exact nomatch (isPop : Update.setf (.int 9) = .pop)
    · have computes : (Update.setf (.int 9)).Computes _ _ [] [.int 9] new store := computes
      cases computes
      exact reads fun _ => names
  · cases o' with
    | ok v' u' => exact absurd rfl (noValue v' u')
    | _ => cases same
  · cases same

/-- The pairs of the form `(setf (nth 1 (quote LIST)) (progn (setf (cdr (quote LIST)) '(8 9)) 5))`,
in which `LIST` is `(1 2 3)`. -/
def Store.relinking : Store where
  pairs := #[⟨.int 3, .nil⟩, ⟨.int 2, .cons 0⟩, ⟨.int 1, .cons 1⟩, ⟨.cons 2, .nil⟩,
    ⟨.symbol "quote", .cons 3⟩, ⟨.cons 4, .nil⟩, ⟨.int 1, .cons 5⟩, ⟨.symbol "nth", .cons 6⟩,
    ⟨.int 9, .nil⟩, ⟨.int 8, .cons 8⟩, ⟨.cons 9, .nil⟩, ⟨.symbol "quote", .cons 10⟩,
    ⟨.symbol "cdr", .cons 5⟩, ⟨.cons 11, .nil⟩, ⟨.cons 12, .cons 13⟩, ⟨.symbol "setf", .cons 14⟩,
    ⟨.int 5, .nil⟩, ⟨.cons 15, .cons 16⟩, ⟨.symbol "progn", .cons 17⟩, ⟨.cons 18, .nil⟩,
    ⟨.cons 7, .cons 19⟩, ⟨.symbol "setf", .cons 20⟩]

/-- A session in which a variable that becomes local when it is set is not local yet. -/
def Session.popping : Session where
  store := { pairs := #[⟨.symbol "x", .nil⟩, ⟨.symbol "pop", .cons 0⟩] }
  globals := .ofList [("x", .nil)]
  autoLocal := .ofList [("x", ())]

/-- The element of a list is put where it was, so the list need not have it any more.  And popping
the empty list does not make a variable local. -/
theorem Eval.not_ends_update_relinking :
    (let s : Session := { store := .relinking }
      let c := Update.setf (.cons 18)
      let P := PlaceForm.nth (.int 1) (.cons 4)
      s.store.Lists (.cons 21) (.symbol c.name :: (c.before ++ .cons 7 :: c.after)) ∧
        P.IsWritten s.store (.cons 7) ∧
          InTurn 0 s.inside P.subforms [.int 1, .cons 2] s.inside ∧
            s.store.Lists (.cons 2) [.int 1, .int 2, .int 3] ∧
              ∃ v u, Interp.Ends (.cons 21) 0 s (.ok v u) ∧ ¬P.Reads 0 [.int 1, .cons 2] u v) ∧
      let s : Session := .popping
      s.store.Lists (.cons 1) [.symbol Update.pop.name, .symbol "x"] ∧
        Interp.Ends (.cons 1) 0 s (.ok .nil s) ∧
          ∀ new u, (Place.var "x").PutsInto 0 new s u → u ≠ s := by
  constructor
  · intro s c P
    have isForm : s.store.Lists (.cons 21) [.symbol "setf", .cons 7, .cons 18] :=
      .cons (p := ⟨.symbol "setf", .cons 20⟩) rfl (.cons (p := ⟨.cons 7, .cons 19⟩) rfl
        (.cons (p := ⟨.cons 18, .nil⟩) rfl .nil))
    have isPlace : s.store.Lists (.cons 7) [.symbol "nth", .int 1, .cons 4] :=
      .cons (p := ⟨.symbol "nth", .cons 6⟩) rfl (.cons (p := ⟨.int 1, .cons 5⟩) rfl
        (.cons (p := ⟨.cons 4, .nil⟩) rfl .nil))
    have proper : s.store.Lists (.cons 2) [.int 1, .int 2, .int 3] :=
      .cons (p := ⟨.int 1, .cons 1⟩) rfl (.cons (p := ⟨.int 2, .cons 0⟩) rfl
        (.cons (p := ⟨.int 3, .nil⟩) rfl .nil))
    have subforms : InTurn 0 s.inside P.subforms [.int 1, .cons 2] s.inside :=
      .cons ⟨1, rfl, nofun⟩ (.cons ⟨2, rfl, nofun⟩ (.nil _))
    let second (u : Session) : Option Int64 :=
      (callPrimitive (.ofLevel 0) "nth" [.int 1, .cons 2] u).returned?.bind fun r => r.1.int?
    obtain ⟨v, u, ends, found⟩ : ∃ v u, Interp.Ends (.cons 21) 0 s (.ok v u) ∧
        some (v.int?, second u) = some (some 5, some 8) :=
      Interp.exists_ends 6 (fun r => some (r.1.int?, second r.2)) (by decide +kernel)
    refine ⟨isForm, isPlace, subforms, proper, v, u, ends, fun reads => ?_⟩
    have read : callPrimitive (.ofLevel 0) "nth" [.int 1, .cons 2] u = .ok v u := reads (.ofLevel 0)
    have returned : second u = v.int? :=
      congrArg (fun o => (Outcome.returned? o).bind fun r => r.1.int?) read
    rw [returned] at found
    obtain ⟨five, eight⟩ := Prod.mk.inj (Option.some.inj found)
    rw [five] at eight
    exact absurd eight (by decide)
  · intro s
    have isForm : s.store.Lists (.cons 1) [.symbol "pop", .symbol "x"] :=
      .cons (p := ⟨.symbol "pop", .cons 0⟩) rfl (.cons (p := ⟨.symbol "x", .nil⟩) rfl .nil)
    refine ⟨isForm, ⟨2, rfl, nofun⟩, fun new u puts same => ?_⟩
    have noLocal : s.localIn? "x" = none := rfl
    cases puts with
    | bound held => cases held
    | inBuffer _ current _ =>
        have isLocal := Session.localIn?_setLocal Workspace.wellFormed_initial.toConsistent current
          "x" new
        rw [same, noLocal] at isLocal
        cases isLocal
    | globally _ _ isGlobal => cases isGlobal

end EditorLisp
