import EditorLisp.Proofs.Evaluation.Alike
import EditorLisp.Proofs.Forms.Template

/-!
# Backquoted templates

A backquoted template is walked from left to right, and each form in it is evaluated when the walk
comes to it.  The walk looks at the template as it stands then, so what is said here supposes that
the forms leave the pairs and the vectors of the template alone.  Then the forms are evaluated once
each, in order, and the value is the template with the forms replaced by what they gave; where a
form fails, so does the whole template, and the forms after it are not evaluated.
-/

namespace EditorLisp

open Forms Unquote

/-! ## The forms of a template -/

/-- The elements of a proper list, of a vector or of a string, whose elements are codes. -/
inductive Store.Sequence (st : Store) : Value → List Value → Prop where
  | list {v : Value} {vs : List Value} : st.list? v = some vs → Sequence st v vs
  | vector {v : Value} {items : Array Value} : st.items? v = some items → Sequence st v items.toList
  | text (id : Nat) (text : String) :
      Sequence st (.str id text) (text.toList.map fun c => .ofNat c.toNat)

namespace Eval

variable {s : Session} {v : Value} {vs : List Value}

end Eval

namespace Unquote

/-- A form is evaluated and gives its value, or the elements of its value. -/
inductive Gives (frame : Nat) (s : Session) : Unquote → List Value → Session → Prop where
  | value {form v : Value} {t : Session} :
      Interp.Ends form frame s (.ok v t) → Gives frame s (.value form) [v] t
  | splice {form v : Value} {vs : List Value} {t : Session} :
      Interp.Ends form frame s (.ok v t) → t.store.Sequence v vs →
        Gives frame s (.splice form) vs t

/-- A form is evaluated without a value, or has no elements to be spliced in. -/
inductive Fails (frame : Nat) (s : Session) : Unquote → Outcome Value → Prop where
  | form {u : Unquote} {o : Outcome Value} :
      Interp.Ends u.form frame s o → (∀ v t, o ≠ .ok v t) → Fails frame s u o
  | splice {form v : Value} {t : Session} :
      Interp.Ends form frame s (.ok v t) → (∀ vs, ¬t.store.Sequence v vs) →
        Fails frame s (.splice form) (.exit (.wrongType "sequencep" v) t)

/-- Forms are evaluated one after the other. -/
inductive Answers (frame : Nat) : Session → List Unquote → List (List Value) → Session → Prop where
  | nil (s : Session) : Answers frame s [] [] s
  | cons {s t t' : Session} {u : Unquote} {us : List Unquote} {vs : List Value}
      {answers : List (List Value)} :
      Gives frame s u vs t → Answers frame t us answers t' →
        Answers frame s (u :: us) (vs :: answers) t'

/-- What a form gives. -/
def answer (I : Interp) (frame : Nat) : Unquote → Eval (List Value)
  | .value form => do return [← I.eval form frame]
  | .splice form => do Eval.sequenceElements (← I.eval form frame)

variable {frame : Nat} {s t t' : Session} {u : Unquote} {us us' : List Unquote} {vs : List Value}
  {answers answers' : List (List Value)} {o : Outcome Value}

open Eval

theorem Fails.finished (fails : u.Fails frame s o) : o ≠ .unfinished := by
  cases fails with
  | form ends _ => exact ends.choose_spec.2
  | splice _ _ => nofun

theorem Answers.append (first : Answers frame s us answers t)
    (second : Answers frame t us' answers' t') :
    Answers frame s (us ++ us') (answers ++ answers') t' := by
  induction first with
  | nil s => exact second
  | cons gives _ ih => exact .cons gives (ih second)

/-- The stores that are seen while forms are evaluated in turn. -/
def Reached (frame : Nat) (s : Session) (us : List Unquote) (st : Store) : Prop :=
  ∃ earlier answers t, earlier <+: us ∧ Answers frame s earlier answers t ∧ t.store = st

theorem Reached.start (frame : Nat) (s : Session) (us : List Unquote) :
    Reached frame s us s.store :=
  ⟨[], [], s, us.nil_prefix, .nil s, rfl⟩

theorem Gives.reached {st : Store} (gives : u.Gives frame s vs t)
    (reached : Reached frame t us st) : Reached frame s (u :: us) st := by
  obtain ⟨earlier, answers, t', isPrefix, given, rfl⟩ := reached
  exact ⟨u :: earlier, _, t', List.cons_prefix_cons.mpr ⟨rfl, isPrefix⟩, .cons gives given, rfl⟩

theorem Answers.reached {st : Store} (given : Answers frame s us answers t)
    (reached : Reached frame t us' st) : Reached frame s (us ++ us') st := by
  obtain ⟨earlier, answers', t', isPrefix, given', rfl⟩ := reached
  exact ⟨us ++ earlier, _, t', (List.prefix_append_right_inj us).mpr isPrefix,
    given.append given', rfl⟩

end Unquote

/-! ## Reading a template -/

/-- The names that mean something in a template. -/
def templateMarks : List String := [",", ",@", "`", vectorMark]

/-- What is left of a template has an element at the front, the same one in several stores. -/
structure Forms.Remainder.Splits (during : Store → Prop) (r : Remainder) (item : Value)
    (rest : Remainder) : Prop where
  isPair : r.isPair = true
  car_eq : ∀ st, during st → r.car st = item
  cdr_eq : ∀ st, during st → r.cdr st = rest

/-- A mark is in front of a form, in several stores. -/
def Forms.Remainder.Marks (during : Store → Prop) (r : Remainder) (mark : String) (form : Value) :
    Prop :=
  ∃ item rest rest', r.Splits during item rest ∧ item.isNamed mark = true ∧
    rest.Splits during form rest'

/-- Data are a template, in several stores and by the same pairs and vectors.  A vector is written
as a marked list or is one already, and does not stand as the tail of a list; no element of a list
is a mark. -/
inductive Template.Reads (during : Store → Prop) : Template → Remainder → Prop where
  | atom {v : Value} : v.isCons = false → (∀ ref, v ≠ .vector ref) →
      Reads during (.atom v) (.data v)
  | last : Reads during (.atom .nil) (.items [])
  | unquote {r : Remainder} {form : Value} : r.Marks during "," form →
      Reads during (.unquote form) r
  | cons {r rest : Remainder} {item : Value} {T T' : Template} : r.Splits during item rest →
      (∀ mark ∈ templateMarks, item.isNamed mark = false) → Reads during T (.data item) →
        Reads during T' rest → ¬T'.IsVector → Reads during (.cons T T') r
  | splice {r rest : Remainder} {item form : Value} {T : Template} : r.Splits during item rest →
      Remainder.Marks during (.data item) ",@" form → Reads during T rest → ¬T.IsVector →
        Reads during (.splice form T) r
  | written {r rest : Remainder} {item : Value} {T : Template} : r.Splits during item rest →
      item.isNamed vectorMark = true → Reads during T rest → T.IsProper →
        Reads during (.vector T) r
  | vector {ref : Nat} {items : Array Value} {T : Template} :
      (∀ st, during st → st.vectors[ref]? = some items) → Reads during T (.items items.toList) →
        T.IsProper → Reads during (.vector T) (.data (.vector ref))

/-! ## Walking a template -/

namespace Forms

open Eval Outcome Unquote

variable {during : Store → Prop} {frame level fuel steps : Nat} {s : Session} {r rest : Remainder}
  {item form : Value} {T T' : Template} {st : Store}

end Forms

/-! ## Evaluating a backquoted form -/

namespace Eval

open Unquote

variable {s : Session} {form template : Value} {T : Template} {frame : Nat}

end Eval

/-! ## Forms that change nothing, and one that changes the template -/

theorem Template.Reads.mono {during during' : Store → Prop} {T : Template} {r : Remainder}
    (reads : T.Reads during r) (fewer : ∀ st, during' st → during st) : T.Reads during' r := by
  have splits {r rest : Remainder} {item : Value} (splits : r.Splits during item rest) :
      r.Splits during' item rest :=
    ⟨splits.isPair, fun st now => splits.car_eq st (fewer st now),
      fun st now => splits.cdr_eq st (fewer st now)⟩
  have marks {r : Remainder} {mark : String} {form : Value} (marks : r.Marks during mark form) :
      r.Marks during' mark form := by
    obtain ⟨item, rest, rest', first, named, second⟩ := marks
    exact ⟨item, rest, rest', splits first, named, splits second⟩
  induction reads with
  | atom noPair noVector => exact .atom noPair noVector
  | last => exact .last
  | unquote marked => exact .unquote (marks marked)
  | cons front noMark _ _ noVector ih ih' => exact .cons (splits front) noMark ih ih' noVector
  | splice front marked _ noVector ih => exact .splice (splits front) (marks marked) ih noVector
  | written front named _ proper ih => exact .written (splits front) named ih proper
  | vector there _ proper ih => exact .vector (fun st now => there st (fewer st now)) ih proper

namespace Unquote

variable {frame : Nat} {s t : Session} {us : List Unquote} {answers : List (List Value)}

end Unquote

/-- Splits of data are read off the store. -/
theorem Forms.Remainder.Splits.of_there {st : Store} {ref : Nat} {p : Pair}
    (there : st.pairs[ref]? = some p) :
    (Remainder.data (.cons ref)).Splits (· = st) p.car (.data p.cdr) where
  isPair := rfl
  car_eq := by
    rintro _ rfl
    exact Store.car_of_there there
  cdr_eq := by
    rintro st rfl
    exact congrArg Remainder.data (Store.cdr_of_there there)

theorem Forms.Remainder.Marks.of_there {st : Store} {ref ref' : Nat} {p q : Pair} {mark : String}
    (there : st.pairs[ref]? = some p) (named : p.car.isNamed mark = true)
    (next : p.cdr = .cons ref') (there' : st.pairs[ref']? = some q) :
    (Remainder.data (.cons ref)).Marks (· = st) mark q.car := by
  refine ⟨_, _, .data q.cdr, .of_there there, named, ?_⟩
  rw [next]
  exact .of_there there'

end EditorLisp
