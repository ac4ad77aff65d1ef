import EditorLisp.Proofs.Evaluation.Alike
import EditorLisp.Proofs.Store.Tree

/-!
# Forms evaluated in turn

Many forms evaluate the forms in them one after the other, each once, and do something with the
values at the end or in between.  If one of them gives no value, or what was found so far is
refused, nothing more is done.  A `Course` says that of a step: it names the forms, and the courses
of steps that follow each other make up one of their forms together.
-/

namespace EditorLisp

/-- Nothing was done to a session but that pairs and vectors were made. -/
structure Session.EnlargedTo (s t : Session) : Prop where
  store : s.store.EnlargedTo t.store
  aside : t = { s with store := t.store }

namespace Session.EnlargedTo

variable {s t u : Session}

theorem refl (s : Session) : s.EnlargedTo s := ⟨⟨.refl _, rfl⟩, rfl⟩

theorem trans (first : s.EnlargedTo t) (second : t.EnlargedTo u) : s.EnlargedTo u where
  store := first.store.trans second.store
  aside := by
    rw [second.aside, first.aside]

theorem cons (s : Session) (car cdr : Value) :
    s.EnlargedTo { s with store := (s.store.cons car cdr).2 } :=
  ⟨⟨.cons s.store car cdr, rfl⟩, rfl⟩

theorem list (s : Session) (items : List Value) :
    s.EnlargedTo { s with store := (s.store.list items).2 } := by
  unfold Store.list
  induction items with
  | nil => exact refl s
  | cons item items ih =>
      rw [Store.listWithTail_cons]
      exact ih.trans (cons { s with store := (s.store.listWithTail items .nil).2 } item _)

end Session.EnlargedTo

namespace Eval

variable {α β : Type} {frame : Nat} {s t u : Session} {forms later values : List Value}

/-! ## Values -/

/-- Forms are evaluated one after the other, each once, and all of them give values. -/
inductive InTurn (frame : Nat) : Session → List Value → List Value → Session → Prop where
  | nil (s : Session) : InTurn frame s [] [] s
  | cons {s t u : Session} {form v : Value} {forms values : List Value} :
      Interp.Ends form frame s (.ok v t) → InTurn frame t forms values u →
        InTurn frame s (form :: forms) (v :: values) u

namespace InTurn

theorem append {more : List Value} (first : InTurn frame s forms values t)
    (second : InTurn frame t later more u) :
    InTurn frame s (forms ++ later) (values ++ more) u := by
  induction first with
  | nil s => exact second
  | cons ends _ ih => exact .cons ends (ih second)

theorem unique {others : List Value} (first : InTurn frame s forms values t)
    (second : InTurn frame s forms others u) : values = others ∧ t = u := by
  induction first generalizing others with
  | nil s =>
      cases second
      exact ⟨rfl, rfl⟩
  | cons ends _ ih =>
      cases second with
      | cons ends' rest =>
          cases ends.unique ends'
          obtain ⟨rfl, rfl⟩ := ih rest
          exact ⟨rfl, rfl⟩

theorem kept (inTurn : InTurn frame s forms values t) (inOrder : s.workspace.WellFormed) :
    s.Kept t := by
  induction inTurn with
  | nil s => exact .refl inOrder
  | cons ends _ ih =>
      obtain ⟨level, ended, -⟩ := ends
      have first := Restores.kept_of_ok inOrder ended
      exact first.trans (ih first.wellFormed)

end InTurn

/-! ## Ways to end -/

/-- Forms are evaluated one after the other until one gives no value, and that is how it ends, or
until something is refused, which makes no more than the data that the refusal names. -/
inductive Stops (frame : Nat) (s : Session) (forms : List Value) : Outcome α → Prop where
  | form {form : Value} {earlier later values : List Value} {t : Session} {o : Outcome Value}
      {o' : Outcome α} : forms = earlier ++ form :: later → InTurn frame s earlier values t →
        Interp.Ends form frame t o → o'.FailsLike o → Stops frame s forms o'
  | refused {flow : Flow} {earlier later values : List Value} {t u : Session} :
      forms = earlier ++ later → InTurn frame s earlier values t → t.EnlargedTo u →
        Stops frame s forms (.exit flow u)

/-- A step evaluates forms in turn.  It returns what is related to the values, the session after
them and the session that it leaves, or it stops on the way, or it does not finish. -/
inductive Course (frame : Nat) (s : Session) (forms : List Value)
    (R : List Value → Session → α → Session → Prop) : Outcome α → Prop where
  | ok {values : List Value} {t u : Session} {a : α} : InTurn frame s forms values t →
      R values t a u → Course frame s forms R (.ok a u)
  | stops {o : Outcome α} : Stops frame s forms o → Course frame s forms R o
  | unfinished : Course frame s forms R .unfinished

theorem Stops.after {o : Outcome α} (stops : Stops frame t later o)
    (inTurn : InTurn frame s forms values t) : Stops frame s (forms ++ later) o := by
  cases stops with
  | form split inTurn' ends fails =>
      exact .form (by rw [split, List.append_assoc]) (inTurn.append inTurn') ends fails
  | refused split inTurn' enlarged =>
      exact .refused (by rw [split, List.append_assoc]) (inTurn.append inTurn') enlarged

/-- What stops is not made up for by later steps, with more forms. -/
theorem Stops.bind {m : Eval α} (stops : Stops frame s forms (m t)) (f : α → Eval β)
    (later : List Value) : Stops frame s (forms ++ later) ((m >>= f) t) := by
  generalize ended : m t = o at stops
  cases stops with
  | @form form earlier rest _ _ _ _ split inTurn ends fails =>
      rw [← ended] at fails
      have split' : forms ++ later = earlier ++ form :: (rest ++ later) := by
        rw [split, List.append_assoc, List.cons_append]
      exact .form split' inTurn ends (fails.bind f)
  | refused split inTurn enlarged =>
      rw [bind_of_exit f ended]
      exact .refused (by rw [split, List.append_assoc]) inTurn enlarged

namespace Course

variable {R : List Value → Session → β → Session → Prop}

/-- A step may follow one that leaves the session as its forms did. -/
theorem bind (forms : List Value) {m : Eval α} {f : α → Eval β}
    {Q : List Value → Session → α → Prop}
    (first : Course frame s forms (fun values t a u => u = t ∧ Q values t a) (m s))
    (next : ∀ values t a, InTurn frame s forms values t → Q values t a →
      Course frame t later (fun more => R (values ++ more)) (f a t)) :
    Course frame s (forms ++ later) R ((m >>= f) s) := by
  generalize ended : m s = o at first
  cases first with
  | @ok values t _ a inTurn related =>
      obtain ⟨rfl, related⟩ := related
      rw [bind_of_ok f ended]
      have second := next values _ a inTurn related
      generalize f a _ = o at second
      cases second with
      | ok inTurn' related' => exact .ok (inTurn.append inTurn') related'
      | stops stops => exact .stops (stops.after inTurn)
      | unfinished => exact .unfinished
  | stops stops =>
      rw [← ended] at stops
      exact .stops (stops.bind f later)
  | unfinished =>
      rw [bind_of_unfinished f ended]
      exact .unfinished

/-- A step without forms may stand in front of any other one. -/
theorem bind_first {m : Eval α} {f : α → Eval β} {Q : α → Prop}
    (first : Course frame s [] (fun _ t a u => u = t ∧ Q a) (m s))
    (next : ∀ a, Q a → Course frame s later R (f a s)) : Course frame s later R ((m >>= f) s) := by
  refine bind [] (Q := fun _ _ a => Q a) first fun values t a inTurn related => ?_
  cases inTurn
  exact next a related

/-- A step without forms may follow any other one. -/
theorem bind_last {m : Eval α} {f : α → Eval β} {Q : List Value → Session → α → Prop}
    (first : Course frame s forms (fun values t a u => u = t ∧ Q values t a) (m s))
    (next : ∀ values t a, InTurn frame s forms values t → Q values t a →
      Course frame t [] (fun _ => R values) (f a t)) : Course frame s forms R ((m >>= f) s) := by
  rw [← List.append_nil forms]
  refine bind forms first fun values t a inTurn related => ?_
  generalize outcome : f a t = o
  have last := next values t a inTurn related
  rw [outcome] at last
  cases last with
  | ok none related' =>
      cases none
      exact .ok (.nil t) (by rwa [List.append_nil])
  | stops stops => exact .stops stops
  | unfinished => exact .unfinished

theorem mono {R' : List Value → Session → β → Session → Prop} {o : Outcome β}
    (course : Course frame s forms R o)
    (weaker : ∀ values t b u, InTurn frame s forms values t → R values t b u → R' values t b u) :
    Course frame s forms R' o := by
  cases course with
  | ok inTurn related => exact .ok inTurn (weaker _ _ _ _ inTurn related)
  | stops stops => exact .stops stops
  | unfinished => exact .unfinished

/-- What is looked up afterwards is looked up in the session that is left. -/
theorem then_get {m : Eval α} {Q : List Value → Session → α → Session → Prop}
    (course : Course frame s forms Q (m s)) (g : Session → β) :
    Course frame s forms (fun values t b u => (∃ a, Q values t a u) ∧ b = g u)
      ((m >>= fun _ => Eval.get g) s) := by
  generalize ended : m s = o at course
  cases course with
  | ok inTurn related =>
      rw [bind_of_ok _ ended]
      exact .ok inTurn ⟨⟨_, related⟩, rfl⟩
  | stops stops =>
      rw [← ended] at stops
      rw [← List.append_nil forms]
      exact .stops (stops.bind _ [])
  | unfinished =>
      rw [bind_of_unfinished _ ended]
      exact .unfinished

/-- New data may be made before a step without forms. -/
theorem of_enlargedTo {o : Outcome β} (enlarged : s.EnlargedTo t) (course : Course frame t [] R o) :
    Course frame s [] (fun _ s' b u => s' = s ∧ R [] t b u) o := by
  cases course with
  | ok none related =>
      cases none
      exact .ok (.nil s) ⟨rfl, related⟩
  | stops stops =>
      cases stops with
      | form split _ _ _ => simp at split
      | refused split inTurn enlarged' =>
          obtain ⟨rfl, rfl⟩ := List.append_eq_nil_iff.mp split.symm
          cases inTurn
          exact .stops (.refused rfl (.nil s) (enlarged.trans enlarged'))
  | unfinished => exact .unfinished

/-- A step that leaves the session alone may be asked again. -/
theorem again {m : Eval α} (course : Course frame s [] (fun _ t _ u => u = t) (m s)) :
    Course frame s [] (fun _ t a u => u = t ∧ m s = .ok a s) (m s) := by
  generalize ended : m s = o at course
  cases course with
  | ok none same =>
      cases none
      cases same
      exact .ok (.nil s) ⟨rfl, rfl⟩
  | stops stops => exact .stops stops
  | unfinished => exact .unfinished

/-- A single form is evaluated. -/
theorem eval (level : Nat) (form : Value) (frame : Nat) (s : Session) :
    Course frame s [form] (fun values t v u => u = t ∧ values = [v])
      ((Interp.ofLevel level).eval form frame s) := by
  cases ended : (Interp.ofLevel level).eval form frame s with
  | ok v t => exact .ok (.cons (.of_eq ended nofun) (.nil t)) ⟨rfl, rfl⟩
  | exit flow t =>
      exact .stops (.form (List.nil_append _).symm (.nil s) (.of_eq ended nofun) (.exit flow t))
  | crashed t =>
      exact .stops (.form (List.nil_append _).symm (.nil s) (.of_eq ended nofun) (.crashed t))
  | unfinished => exact .unfinished

/-! ### Refusals -/

theorem leave (flow : Flow) (s : Session) :
    Course frame s [] R ((Eval.leave flow : Eval β) s) :=
  .stops (.refused rfl (.nil s) (.refl s))

theorem signal (condition : String) (data : List Value) (s : Session) :
    Course frame s [] R ((Eval.signal condition data : Eval β) s) :=
  .stops (.refused rfl (.nil s) (.list s data))

theorem integer (v : Value) (s : Session) :
    Course frame s [] (fun _ t n u => u = t ∧ v = .int n) (integer v s) := by
  unfold Eval.integer
  split
  · exact .ok (.nil s) ⟨rfl, rfl⟩
  · exact leave _ s

end Course

end Eval

end EditorLisp
