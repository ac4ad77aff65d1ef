import EditorLisp.Proofs.Forms.Backquote

/-!
# Templates without forms

A datum may be quoted, or given as a template without forms in it.  Both build the vectors that are
written in the datum, the quotation by a search for the marks of written vectors and the template by
a walk along its lists.  Where no vector is the tail of a list the values are the same tree; a vector
written there is an end of its list for the quotation and more elements for the template.
-/

namespace EditorLisp

open Forms

namespace ValueTree

variable {t u : ValueTree} {ts : List ValueTree} {n k : Nat}

/-- No part of a tree is a symbol that means something in templates. -/
def Markless (t : ValueTree) : Prop :=
  ∀ (n : Nat) (v : Value), t.PartAt n (.atom (.other v)) →
    ∀ mark ∈ templateMarks, v.isNamed mark = false

/-- No list in a tree has a vector for its tail. -/
def NoVectorTail (t : ValueTree) : Prop :=
  ∀ (n : Nat) (a : ValueTree) (ts : List ValueTree), ¬t.PartAt n (.cons a (.vector ts))

theorem Markless.unmarked (markless : t.Markless) : t.Unmarked :=
  fun n v part => markless n v part vectorMark (by decide)

end ValueTree

namespace Store

variable {s : Store} {v : Value} {t : ValueTree} {ts : List ValueTree} {items : List Value}

/-- Data are read in a store as a template without forms, and every copy of them shows a tree. -/
structure ReadsVerbatim (s : Store) (v : Value) (T : Template) (c : Copy) (t : ValueTree) :
    Prop where
  reads : T.Reads (· = s) (.data v)
  noForms : T.unquotes = []
  filled : T.Filled [] c
  shows : ∀ (st : Store) (w : Value), st.Realizes w c → st.Shows w t

theorem readsVerbatim_atom {a : Atom} (atom : v.atom? = some a) :
    s.ReadsVerbatim v (.atom v) (.leaf v) (.atom a) where
  reads := by
    refine .atom ?_ ?_
    · cases v with
      | cons ref => cases atom
      | _ => rfl
    · rintro ref rfl
      cases atom
  noForms := rfl
  filled := .atom v
  shows st w realizes := by
    rw [realizes.eq_of_leaf]
    exact .atom atom

theorem readsVerbatim_cons {ref : Nat} {p : Pair} {first rest : Template} {c c' : Copy}
    {a d : ValueTree} (there : s.pairs[ref]? = some p) (shown : s.Shows p.car a.written)
    (noMark : ∀ mark ∈ templateMarks, ∀ w, a = .atom (.other w) → w.isNamed mark = false)
    (car : s.ReadsVerbatim p.car first c a) (cdr : s.ReadsVerbatim p.cdr rest c' d)
    (noVector : ¬rest.IsVector) :
    s.ReadsVerbatim (.cons ref) (.cons first rest) (.cons c c') (.cons a d) where
  reads := .cons (.of_there there) (fun mark member => shown.not_isNamed (noMark mark member))
    car.reads cdr.reads noVector
  noForms := by
    rw [Template.unquotes, car.noForms, cdr.noForms]
    rfl
  filled := .cons car.filled cdr.filled
  shows st w realizes := by
    cases realizes with
    | cons there' realizesCar realizesCdr =>
        exact .cons there' (car.shows st _ realizesCar) (cdr.shows st _ realizesCdr)

mutual

/-- A datum without marks, in which no vector is the tail of a list, is read as it is. -/
theorem exists_readsVerbatim {s : Store} {v : Value} (t : ValueTree) (shown : s.Shows v t.written)
    (markless : t.Markless) (noTail : t.NoVectorTail) :
    ∃ (T : Template) (c : Copy), s.ReadsVerbatim v T c t ∧ (T.IsVector → ∃ ts, t = .vector ts) := by
  cases t with
  | atom a => exact ⟨_, _, readsVerbatim_atom shown.of_written_atom, False.elim⟩
  | cons a d =>
      obtain ⟨ref, p, rfl, there, shownCar, shownCdr⟩ := shown.of_written_cons
      obtain ⟨first, c, car, -⟩ := exists_readsVerbatim a shownCar
        (fun n w part => markless (n + 1) w (.car part))
        fun n b ts part => noTail (n + 1) b ts (.car part)
      obtain ⟨rest, c', cdr, isVector⟩ := exists_readsVerbatim d shownCdr
        (fun n w part => markless (n + 1) w (.cdr part))
        fun n b ts part => noTail (n + 1) b ts (.cdr part)
      refine ⟨_, _, readsVerbatim_cons there shownCar ?_ car cdr ?_, False.elim⟩
      · rintro mark member w rfl
        exact markless 1 w (.car (.root _)) mark member
      · intro vector
        obtain ⟨ts, rfl⟩ := isVector vector
        exact noTail 0 a ts (.root _)
  | vector ts =>
      obtain ⟨ref, p, items, rfl, there, named, lists, all⟩ := shown.of_written_vector
      obtain ⟨T, copies, reads, noForms, filled, proper, -, shows⟩ := exists_items ts lists all
        (fun t member n w part => markless (n + 1) w (.item member part))
        fun t member n b us part => noTail (n + 1) b us (.item member part)
      refine ⟨.vector T, .vector copies, ⟨?_, noForms, .vector filled, ?_⟩, fun _ => ⟨ts, rfl⟩⟩
      · exact .written (.of_there there) named reads proper
      · intro st w realizes
        cases realizes with
        | vector there' size each =>
            have sizes := shows.length_eq
            refine .vector there' (size.trans sizes) fun k item t here here' => ?_
            obtain ⟨inside, rfl⟩ := List.getElem?_eq_some_iff.mp here'
            have copy := List.getElem?_eq_getElem (sizes ▸ inside)
            exact (List.forall₂_iff_get.mp shows).2 k _ inside st item (each k item _ here copy)

theorem exists_items {s : Store} {v : Value} {items : List Value} (ts : List ValueTree)
    (lists : s.Lists v items)
    (all : List.Forall₂ (fun v t => s.Shows v t.written) items ts)
    (markless : ∀ t ∈ ts, t.Markless) (noTail : ∀ t ∈ ts, t.NoVectorTail) :
    ∃ (T : Template) (copies : List Copy), T.Reads (· = s) (.data v) ∧ T.unquotes = [] ∧
      T.Filled [] (.listWithTail copies (.leaf .nil)) ∧ T.IsProper ∧ ¬T.IsVector ∧
        List.Forall₂ (fun c t => ∀ (st : Store) (w : Value), st.Realizes w c → st.Shows w t)
          copies ts := by
  cases ts with
  | nil =>
      cases all
      cases lists
      exact ⟨.atom .nil, [], .atom rfl nofun, rfl, .atom .nil, rfl, id, .nil⟩
  | cons t ts =>
      rw [List.forall_mem_cons] at markless noTail
      cases all with
      | cons shown all =>
          cases lists with
          | cons there lists =>
              obtain ⟨first, c, one, -⟩ := exists_readsVerbatim t shown markless.1 noTail.1
              obtain ⟨rest, copies, reads, noForms, filled, proper, noVector, shows⟩ :=
                exists_items ts lists all markless.2 noTail.2
              refine ⟨.cons first rest, c :: copies, ?_, ?_, .cons one.filled filled, proper, id,
                .cons one.shows shows⟩
              · refine .cons (.of_there there) (fun mark member => ?_) one.reads reads noVector
                refine shown.not_isNamed fun w same => ?_
                exact markless.1 0 w (same ▸ .root _) mark member
              · rw [Template.unquotes, one.noForms, noForms]
                rfl

end

end Store

namespace Eval

variable {s : Session} {form form' datum datum' : Value} {t : ValueTree}

end Eval

namespace ValueTree

end ValueTree

/-- The datum `(1 . [2])` as it is written, in a quotation and in a template. -/
def Store.vectorTail : Store where
  pairs := #[⟨.int 2, .nil⟩, ⟨.symbol vectorMark, .cons 0⟩, ⟨.int 1, .cons 1⟩, ⟨.cons 2, .nil⟩,
    ⟨.symbol "quote", .cons 3⟩, ⟨.symbol "`", .cons 3⟩]

/-- The tree of that datum. -/
def ValueTree.vectorTail : ValueTree :=
  .cons (.atom (.other (.int 1))) (.vector [.atom (.other (.int 2))])

theorem ValueTree.markless_vectorTail : vectorTail.Markless := by
  rintro n v (_ | part | part)
  · cases part
    decide
  · cases part with
    | item member part =>
        cases List.mem_singleton.mp member
        cases part
        decide

namespace Store.Shows

variable {s : Store} {v w : Value} {t : ValueTree}

theorem isCons_of_atom {a : Atom} (shown : s.Shows v (.atom a)) :
    v.isCons = false ∧ (s.cdr v).isCons = false := by
  have atom := shown.of_atom
  cases v with
  | cons => cases atom
  | _ => exact ⟨rfl, rfl⟩

theorem isCons_eq (first : s.Shows v t) (second : s.Shows w t) : v.isCons = w.isCons := by
  cases first with
  | atom shape => rw [(Shows.atom (s := s) shape).isCons_of_atom.1, second.isCons_of_atom.1]
  | cons =>
      cases second
      rfl
  | vector =>
      cases second
      rfl

/-- Values of one tree have tails alike. -/
theorem isCons_cdr_eq (first : s.Shows v t) (second : s.Shows w t) :
    (s.cdr v).isCons = (s.cdr w).isCons := by
  cases first with
  | atom shape => rw [(Shows.atom shape).isCons_of_atom.2, second.isCons_of_atom.2]
  | cons there _ cdr =>
      cases second with
      | cons there' _ cdr' =>
          rw [cdr_of_there there, cdr_of_there there']
          exact cdr.isCons_eq cdr'
  | vector =>
      cases second
      rfl

end Store.Shows

/-- Whether the tails of a value and of one that was returned are pairs. -/
def pairTails (v : Value) (r : Value × Session) : Option (Bool × Bool) :=
  some ((r.2.store.cdr v).isCons, (r.2.store.cdr r.1).isCons)

/-- A vector that is the tail of a list is one in the value of the quotation, and not in the value
of the template. -/
theorem Eval.not_ends_quote_and_backquote_tail :
    let s : Session := { store := .vectorTail }
    let t := ValueTree.vectorTail
    s.store.Lists (.cons 4) [.symbol "quote", .cons 2] ∧
      s.store.Lists (.cons 5) [.symbol "`", .cons 2] ∧ s.store.Shows (.cons 2) t.written ∧
        t.Markless ∧ (∀ n u, t.written.PartAt n u → n < 500) ∧
          ∃ v s₁ v' s₂, Interp.Ends (.cons 4) 0 s (.ok v s₁) ∧
            Interp.Ends (.cons 5) 0 s₁ (.ok v' s₂) ∧ ¬s₂.store.SameTree v v' := by
  intro s t
  have isQuote : s.store.Lists (.cons 4) [.symbol "quote", .cons 2] :=
    .cons (p := ⟨.symbol "quote", .cons 3⟩) rfl (.cons (p := ⟨.cons 2, .nil⟩) rfl .nil)
  have isBackquote : s.store.Lists (.cons 5) [.symbol "`", .cons 2] :=
    .cons (p := ⟨.symbol "`", .cons 3⟩) rfl (.cons (p := ⟨.cons 2, .nil⟩) rfl .nil)
  have shown : s.store.Shows (.cons 2) t.written := by
    refine .cons (p := ⟨.int 1, .cons 1⟩) rfl (.atom rfl) ?_
    refine .cons (p := ⟨.symbol vectorMark, .cons 0⟩) rfl (.atom rfl) ?_
    exact .cons (p := ⟨.int 2, .nil⟩) rfl (.atom rfl) (.atom rfl)
  have few : ∀ n u, t.written.PartAt n u → n < 500 := by
    rintro n u (_ | part | (_ | part | (_ | part | part)))
    · decide
    · cases part
      decide
    · decide
    · cases part
      decide
    · decide
    · cases part
      decide
    · cases part
      decide
  obtain ⟨v, s₁, ended, rest⟩ : ∃ v s₁, Interp.Ends (.cons 4) 0 s (.ok v s₁) ∧
      ((Interp.ofLevel 6).eval (.cons 5) 0 s₁).returned?.bind (pairTails v) = some (false, true) :=
    Interp.exists_ends 6
      (fun r => ((Interp.ofLevel 6).eval (.cons 5) 0 r.2).returned?.bind (pairTails r.1))
      (by decide +kernel)
  obtain ⟨v', s₂, ended', tails⟩ := Interp.exists_ends 6 (pairTails v) rest
  refine ⟨isQuote, isBackquote, shown, ValueTree.markless_vectorTail, few, v, s₁, v', s₂, ended,
    ended', ?_⟩
  rintro ⟨u, first, second⟩
  have alike := first.isCons_cdr_eq second
  obtain ⟨noPair, pair⟩ := Prod.mk.inj (Option.some.inj tails)
  rw [noPair, pair] at alike
  cases alike

end EditorLisp
