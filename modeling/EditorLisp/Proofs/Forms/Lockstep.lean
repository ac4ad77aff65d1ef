import EditorLisp.Proofs.Forms.Constant
import EditorLisp.Proofs.Forms.LoopClauses
import EditorLisp.Proofs.Levels

/-!
# Clauses in step

A `cl-loop` that collects the list of its variables collects one tuple after the other, each of
one value of every stream, until some stream has none left, the rounds that `repeat` allows are
made, or the loop has made as many rounds as any loop may.  A count that would leave the machine
word has no value left there.
-/

namespace EditorLisp.Forms

open Eval Number

/-! ## The state of a loop -/

variable {clauses : List LoopClause} {st st' : Store} {i : Nat}
  {sequences : List (String × List Value)}

/-- Sequences hold the items that clauses run through. -/
def HoldItems (st : Store) (clauses : List LoopClause) (sequences : List (String × List Value)) :
    Prop :=
  List.Forall₂ (fun (q : String × List ValueTree) (p : String × List Value) =>
    p.1 = q.1 ∧ List.Forall₂ st.Shows p.2 q.2) (clauses.filterMap LoopClause.items?) sequences

theorem HoldItems.mono (holds : HoldItems st clauses sequences) (kept : st.DataKeptIn st') :
    HoldItems st' clauses sequences :=
  holds.imp fun _ _ both => ⟨both.1, Store.showsAll_mono both.2 kept⟩

/-- What is left of sequences after some rounds. -/
def leftOver (i : Nat) (sequences : List (String × List Value)) : List (String × List Value) :=
  sequences.map fun q => (q.1, q.2.drop i)

/-- The counts after some rounds. -/
def countsAfter (i : Nat) (clauses : List LoopClause) : List Counter :=
  (clauses.filterMap LoopClause.counter?).map (Counter.advance^[i])

/-- The variables of a round with their values, in the order in which they are defined. -/
def headsAt (i : Nat) (clauses : List LoopClause) (sequences : List (String × List Value)) :
    List (String × Value) :=
  heads (leftOver i sequences) (countsAfter i clauses)

/-- Each variable is defined once. -/
theorem perm_vars (clauses : List LoopClause) :
    (clauses.filterMap LoopClause.var?).Perm
      ((clauses.filterMap LoopClause.items?).map Prod.fst ++
        (clauses.filterMap LoopClause.counter?).map Counter.var) := by
  induction clauses with
  | nil => exact .refl _
  | cons c clauses ih =>
      cases c with
      | times => exact ih
      | each => exact ih.cons _
      | count | below | upTo => exact (ih.cons _).trans List.perm_middle.symm

theorem HoldItems.names (holds : HoldItems st clauses sequences) :
    sequences.map Prod.fst = (clauses.filterMap LoopClause.items?).map Prod.fst := by
  unfold HoldItems at holds
  generalize clauses.filterMap LoopClause.items? = named at holds
  induction holds with
  | nil => rfl
  | cons both _ ih => rw [List.map_cons, List.map_cons, both.1, ih]

theorem names_headsAt (holds : HoldItems st clauses sequences) (i : Nat) :
    (headsAt i clauses sequences).map Prod.fst =
      (clauses.filterMap LoopClause.items?).map Prod.fst ++
        (clauses.filterMap LoopClause.counter?).map Counter.var := by
  simp [headsAt, heads, leftOver, countsAfter, ← holds.names, Function.comp_def,
    Counter.iterate_keeps]

/-! ## One round -/

/-- A clause with a variable runs through items or counts. -/
theorem LoopClause.var?_cases {c : LoopClause} {x : String} (named : c.var? = some x) :
    (∃ items, c.items? = some (x, items) ∧ ∀ i, c.at? i = items[i]?) ∨
      ∃ k, c.counter? = some k ∧ k.var = x := by
  cases c with
  | each var across operand items =>
      cases named
      exact .inl ⟨items, rfl, fun _ => rfl⟩
  | count | below | upTo =>
      cases named
      exact .inr ⟨_, rfl, rfl⟩
  | times => cases named

section Round

variable {c : LoopClause} {x : String} {t : ValueTree}
  (holds : HoldItems st clauses sequences) (forward : ∀ c ∈ clauses, c.StepsForward)

include holds in
/-- A sequence of the loop holds the items of a clause. -/
theorem HoldItems.exists_mem {items : List ValueTree} (member : c ∈ clauses)
    (runs : c.items? = some (x, items)) :
    ∃ p ∈ sequences, p.1 = x ∧ List.Forall₂ st.Shows p.2 items := by
  obtain ⟨p, there, name, all⟩ :=
    exists_of_forall₂ holds (List.mem_filterMap.mpr ⟨c, member, runs⟩)
  exact ⟨p, there, name, all⟩

include holds forward

/-- In a round the variable of a clause is defined as the value of its stream. -/
theorem mem_headsAt (member : c ∈ clauses) (named : c.var? = some x) (value : c.at? i = some t) :
    ∃ v, (x, v) ∈ headsAt i clauses sequences ∧ st.Shows v t := by
  unfold headsAt heads
  rcases LoopClause.var?_cases named with ⟨items, runs, stream⟩ | ⟨k, counts, rfl⟩
  · obtain ⟨p, there, rfl, all⟩ := holds.exists_mem member runs
    rw [stream] at value
    obtain ⟨v, item, shown⟩ := getElem?_of_forall₂ all value
    refine ⟨v, List.mem_append_left _ (List.mem_map.mpr ⟨(p.1, p.2.drop i), ?_, ?_⟩), shown⟩
    · exact List.mem_map_of_mem there
    · rw [List.headD_eq_head?_getD, List.head?_drop, item, Option.getD_some]
  · rw [LoopClause.at?_eq (forward c member) counts] at value
    split at value
    · cases value
      refine ⟨.int (Counter.advance^[i] k).value,
        List.mem_append_right _ (List.mem_map.mpr ⟨Counter.advance^[i] k, ?_, ?_⟩), .atom rfl⟩
      · exact List.mem_map_of_mem (List.mem_filterMap.mpr ⟨c, member, counts⟩)
      · rw [(Counter.iterate_keeps k i).1]
    · cases value

/-- A stream without a value ends the loop. -/
theorem isOver_of_at? (limit : Option Nat) (member : c ∈ clauses) (named : c.var? = some x)
    (none : c.at? i = none) :
    isOver limit (leftOver i sequences) (countsAfter i clauses) = true := by
  unfold isOver
  rcases LoopClause.var?_cases named with ⟨items, runs, stream⟩ | ⟨k, counts, rfl⟩
  · obtain ⟨p, there, rfl, all⟩ := holds.exists_mem member runs
    rw [stream, List.getElem?_eq_none_iff, ← all.length_eq] at none
    have empty : (leftOver i sequences).any (·.2.isEmpty) = true := by
      rw [List.any_eq_true]
      exact ⟨_, List.mem_map_of_mem there, by simpa using none⟩
    rw [empty, Bool.or_true, Bool.true_or]
  · rw [LoopClause.at?_eq (forward c member) counts] at none
    have ended : (countsAfter i clauses).any (!·.inRange) = true := by
      rw [List.any_eq_true]
      refine ⟨_, List.mem_map_of_mem (List.mem_filterMap.mpr ⟨c, member, counts⟩), ?_⟩
      split at none
      · cases none
      next out => simpa using out
    rw [ended, Bool.or_true]

/-- A loop ends when the rounds are made or a stream has no value. -/
theorem isOver_cases {limit : Option Nat}
    (ended : isOver limit (leftOver i sequences) (countsAfter i clauses) = true) :
    limit = some 0 ∨ ∃ c ∈ clauses, c.var?.isSome ∧ c.at? i = none := by
  unfold isOver at ended
  rw [Bool.or_eq_true, Bool.or_eq_true, beq_iff_eq, List.any_eq_true, List.any_eq_true] at ended
  rcases ended with (made | ⟨q, there, empty⟩) | ⟨k, there, out⟩
  · exact .inl made
  · right
    obtain ⟨p, member, rfl⟩ := List.mem_map.mp there
    obtain ⟨⟨x, items⟩, there', -, all⟩ := exists_of_forall₂_right holds member
    obtain ⟨c, member', runs⟩ := List.mem_filterMap.mp there'
    refine ⟨c, member', ?_⟩
    cases c with
    | each var across operand items' =>
        cases runs
        refine ⟨rfl, ?_⟩
        rw [LoopClause.at?, List.getElem?_eq_none_iff, ← all.length_eq]
        simpa using empty
    | _ => cases runs
  · right
    obtain ⟨k, there', rfl⟩ := List.mem_map.mp there
    obtain ⟨c, member, counts⟩ := List.mem_filterMap.mp there'
    refine ⟨c, member, ?_, ?_⟩
    · cases c with
      | each | times => cases counts
      | _ => rfl
    · rw [LoopClause.at?_eq (forward c member) counts, if_neg (by simpa using out)]

/-- A loop goes on exactly if there are rounds left and a tuple for the next one. -/
theorem isOver_eq_false_iff (limit : Option Nat) :
    isOver limit (leftOver i sequences) (countsAfter i clauses) = false ↔
      limit ≠ some 0 ∧ ∃ row, row? clauses i = some row := by
  rw [← Bool.not_eq_true]
  constructor
  · intro goesOn
    refine ⟨fun made => goesOn ?_, exists_mapM fun c member => ?_⟩
    · rw [made]
      rfl
    · obtain ⟨member, named⟩ := List.mem_filter.mp member
      obtain ⟨x, named⟩ := Option.isSome_iff_exists.mp named
      by_contra absent
      have none := Option.eq_none_iff_forall_ne_some.mpr fun t value => absent ⟨t, value⟩
      exact goesOn (isOver_of_at? holds forward limit member named none)
  · rintro ⟨left, row, made⟩ ended
    rcases isOver_cases holds forward ended with none | ⟨c, member, named, none⟩
    · exact left none
    · obtain ⟨t, -, value⟩ := exists_of_forall₂ (forall₂_of_mapM made)
        (List.mem_filter.mpr ⟨member, named⟩)
      rw [none] at value
      cases value

/-- The variables of a round have values that show its tuple. -/
theorem exists_values (once : (clauses.filterMap LoopClause.var?).Nodup) {row : List ValueTree}
    (made : row? clauses i = some row) :
    ∃ values, List.Forall₂ (fun x v => lastBound? (headsAt i clauses sequences) x = some v)
        (clauses.filterMap LoopClause.var?) values ∧ List.Forall₂ st.Shows values row := by
  have names : ((headsAt i clauses sequences).map Prod.fst).Nodup := by
    rw [names_headsAt holds]
    exact (perm_vars clauses).nodup_iff.mp once
  -- the induction goes through the clauses, while all of them make up the round
  suffices some_ : ∀ cs row, (∀ c ∈ cs, c ∈ clauses) → row? cs i = some row →
      ∃ values, List.Forall₂ (fun x v => lastBound? (headsAt i clauses sequences) x = some v)
        (cs.filterMap LoopClause.var?) values ∧ List.Forall₂ st.Shows values row from
    some_ clauses row (fun _ member => member) made
  intro cs
  induction cs with
  | nil =>
      intro row _ made
      cases made
      exact ⟨[], .nil, .nil⟩
  | cons c cs ih =>
      intro row within made
      rw [List.forall_mem_cons] at within
      cases named : c.var? with
      | none =>
          rw [List.filterMap_cons_none named]
          rw [row?, List.filter_cons_of_neg (by simp [named])] at made
          exact ih row within.2 made
      | some x =>
          rw [List.filterMap_cons_some named]
          rw [row?, List.filter_cons_of_pos (by simp [named])] at made
          cases forall₂_of_mapM made with
          | cons first rest =>
              obtain ⟨v, defined, shown⟩ := mem_headsAt holds forward within.1 named first
              obtain ⟨values, all, shows_⟩ := ih _ within.2 (mapM_of_forall₂ rest)
              exact ⟨v :: values, .cons (lastBound?_of_mem defined names) all,
                .cons shown shows_⟩

end Round

/-! ## The tuple of a round -/

theorem primitive?_list : primitive? "list" = some fun _ args => list args :=
  primitive?_of_lists rfl

section Tuple

variable {s : Session} {frame : Nat} {vars : List String} {values : List Value}
  {form : Value}

theorem evalArgs_symbols (level : Nat) (room : s.depth < s.config.maxDepth)
    (known : List.Forall₂ (fun x v => s.valueIn? x frame = some v) vars values) :
    (Interp.ofLevel (level + 1)).evalArgs frame (vars.map .symbol) s = .ok values s := by
  induction known with
  | nil => rfl
  | cons first _ ih =>
      rw [List.map_cons, Interp.evalArgs]
      have evaluated : (Interp.ofLevel (level + 1)).eval (.symbol _) frame s = .ok _ s :=
        evalForm_symbol (I := .ofLevel level) room first
      rw [bind_of_ok _ evaluated, bind_of_ok _ ih]
      rfl

/-- The list of some variables evaluates to the list of their values. -/
theorem eval_list (level : Nat) (lists : s.store.Lists form (.symbol "list" :: vars.map .symbol))
    (unbound : s.functions.contains "list" = false) (room : s.depth + 1 < s.config.maxDepth)
    (known : List.Forall₂ (fun x v => s.valueIn? x frame = some v) vars values) :
    (Interp.ofLevel (level + 2)).eval form frame s =
      .ok (s.store.list values).1 { s with store := (s.store.list values).2 } := by
  show evalForm (.ofLevel (level + 1)) form frame s = _
  have called : evalNamed (.ofLevel (level + 1)) "list" (vars.map .symbol) frame
      { s with depth := s.depth + 1 } = list values { s with depth := s.depth + 1 } := by
    rw [evalNamed_primitive (s := { s with depth := s.depth + 1 }) unbound rfl primitive?_list]
    exact bind_of_ok _ (evalArgs_symbols (s := { s with depth := s.depth + 1 }) level room known)
  exact (evalForm_named (Nat.lt_of_succ_lt room) lists.isList).trans (ensuring_of_ok _ called)

end Tuple

/-! ## All rounds -/

theorem dataKeptIn_defineAll (st : Store) (frame : Nat) (bindings : List (String × Value)) :
    st.DataKeptIn (st.defineAll frame bindings) := by
  have same : (st.defineAll frame bindings).pairs = st.pairs ∧
      (st.defineAll frame bindings).vectors = st.vectors := by
    unfold Store.defineAll
    induction bindings generalizing st with
    | nil => exact ⟨rfl, rfl⟩
    | cons b bindings ih => exact ih _
  refine ⟨fun ref p there => ?_, fun ref items there => ?_⟩
  · rwa [same.1]
  · rwa [same.2]

/-- The number of rounds that are left of those that a loop may make at most and those that
`repeat` allows. -/
def roundsLeft (room : Nat) (limit : Option Nat) : Nat := limit.elim room (min room)

/-- What the rounds of a loop need to collect the list of its variables. -/
structure Collects (t : Session) (frame : Nat) (clauses : List LoopClause) (form : Value) :
    Prop where
  lists : t.store.Lists form (.symbol "list" :: (clauses.filterMap LoopClause.var?).map .symbol)
  unbound : t.functions.contains "list" = false
  room : t.depth + 1 < t.config.maxDepth
  ordinary : ∀ x ∈ clauses.filterMap LoopClause.var?, t.isSpecial x = false
  once : (clauses.filterMap LoopClause.var?).Nodup
  forward : ∀ c ∈ clauses, c.StepsForward
  there : frame < t.store.frames.size

section Rounds

variable {s t : Session} {frame : Nat} {form : Value} {spec : LoopSpec} {r : LoopResult}

/-- More data make no difference. -/
theorem Collects.mono (collects : Collects t frame clauses form)
    (kept : t.store.DataKeptIn st) (frames : t.store.frames.size ≤ st.frames.size) :
    Collects { t with store := st } frame clauses form :=
  { collects with
    lists := collects.lists.mono kept.pairs
    there := Nat.lt_of_lt_of_le collects.there frames }

/-- In a round that is started the tuple of the round is collected. -/
theorem perform_collect (level : Nat) (collects : Collects t frame clauses form)
    (holds : HoldItems t.store clauses sequences) {row : List ValueTree}
    (made : row? clauses i = some row) (r : LoopResult) :
    ∃ v store, (LoopAction.collect form).perform (.ofLevel (level + 2)) frame r
          (startRound frame (headsAt i clauses sequences) t) =
        .ok { r with collected := v :: r.collected } { t with store } ∧
      t.store.DataKeptIn store ∧ t.store.frames.size ≤ store.frames.size ∧
        store.Shows v (.ofList row) := by
  obtain ⟨values, defined, shown⟩ := exists_values holds collects.forward collects.once made
  let started := startRound frame (headsAt i clauses sequences) t
  have kept : t.store.DataKeptIn started.store := dataKeptIn_defineAll t.store frame _
  have frames : started.store.frames.size = t.store.frames.size :=
    Store.size_frames_defineAll t.store frame _
  have known : List.Forall₂ (fun x v => started.valueIn? x frame = some v)
      (clauses.filterMap LoopClause.var?) values := by
    refine List.forall₂_iff_get.mpr ⟨defined.length_eq, fun k inside inside' => ?_⟩
    have bound := (List.forall₂_iff_get.mp defined).2 k inside inside'
    apply Session.valueIn?_of_lookupIn?
    · exact collects.ordinary _ (List.getElem_mem inside)
    · apply Store.lookupIn?_of_varIn?
      exact (Store.varIn?_defineAll collects.there _ _).trans (by rw [bound, Option.some_or])
  have evaluated := eval_list (s := started) level (collects.lists.mono kept.pairs) collects.unbound
    collects.room known
  obtain ⟨keptRow, sameFrames⟩ := started.store.list_keeps values
  have listed := (Store.lists_list started.store values).1
  refine ⟨(started.store.list values).1, (started.store.list values).2, ?_, kept.trans keptRow,
    ?_, listed.shows (Store.showsAll_mono shown (kept.trans keptRow))⟩
  · exact (bind_of_ok _ evaluated).trans rfl
  · rw [sameFrames, frames]

theorem rowsFrom_of_row? {row : List ValueTree} (made : row? clauses i = some row) (room : Nat) :
    rowsFrom clauses (room + 1) i = row :: rowsFrom clauses room (i + 1) := by
  rw [rowsFrom, made]

/-- Where a loop is over there are no tuples left. -/
theorem rowsFrom_of_isOver (holds : HoldItems st clauses sequences)
    (forward : ∀ c ∈ clauses, c.StepsForward) {limit : Option Nat} (room : Nat)
    (ended : isOver limit (leftOver i sequences) (countsAfter i clauses) = true) :
    rowsFrom clauses (roundsLeft room limit) i = [] := by
  have iff := isOver_eq_false_iff (i := i) holds forward limit
  rw [ended] at iff
  by_cases made : limit = some 0
  · rw [made, roundsLeft, Option.elim_some, Nat.min_zero, rowsFrom]
  · cases left : roundsLeft room limit with
    | zero => rfl
    | succ left =>
        rw [rowsFrom]
        cases none : row? clauses i with
        | none => rfl
        | some row => exact absurd (iff.mpr ⟨made, row, none⟩) Bool.noConfusion

theorem roundsLeft_succ {limit : Option Nat} (room : Nat) (left : limit ≠ some 0) :
    roundsLeft (room + 1) limit = roundsLeft room (limit.map (· - 1)) + 1 := by
  cases limit with
  | none => rfl
  | some n =>
      cases n with
      | zero => exact absurd rfl left
      | succ n => exact Nat.succ_min_succ room n

theorem leftOver_succ (i : Nat) (sequences : List (String × List Value)) :
    (leftOver i sequences).map (fun (var, items) => (var, items.drop 1)) =
      leftOver (i + 1) sequences := by
  simp [leftOver, Function.comp_def]

theorem countsAfter_succ (i : Nat) (clauses : List LoopClause) :
    (countsAfter i clauses).map Counter.advance = countsAfter (i + 1) clauses := by
  rw [countsAfter, countsAfter, List.map_map, ← Function.iterate_succ']

/-- The rounds of a loop that collects the list of its variables collect the tuples that are
left. -/
theorem rounds_collect (level : Nat) (assigns : spec.assigns = [])
    (conditions : spec.conditions = []) (collects : Collects t frame clauses form)
    (holds : HoldItems t.store clauses sequences)
    (room : Nat) (limit : Option Nat) (r : LoopResult) :
    ∃ values store, rounds (.ofLevel (level + 2)) frame spec (.collect form) room limit
          (leftOver i sequences) (countsAfter i clauses) r t =
        .ok { r with collected := values.reverse ++ r.collected } { t with store } ∧
      t.store.DataKeptIn store ∧ t.store.frames.size ≤ store.frames.size ∧
        List.Forall₂ store.Shows values
          ((rowsFrom clauses (roundsLeft room limit) i).map .ofList) := by
  induction room generalizing t i limit r with
  | zero =>
      have none : rowsFrom clauses (roundsLeft 0 limit) i = [] := by
        cases limit with
        | none => rfl
        | some n => rw [roundsLeft, Option.elim_some, Nat.zero_min, rowsFrom]
      rw [none]
      exact ⟨[], t.store, rfl, .refl _, Nat.le_refl _, .nil⟩
  | succ room ih =>
      cases ended : isOver limit (leftOver i sequences) (countsAfter i clauses) with
      | true =>
          rw [rowsFrom_of_isOver holds collects.forward _ ended]
          refine ⟨[], t.store, ?_, .refl _, Nat.le_refl _, .nil⟩
          unfold isOver at ended
          rw [rounds, ended, if_pos rfl]
          rfl
      | false =>
          obtain ⟨left, row, made⟩ := (isOver_eq_false_iff holds collects.forward limit).mp ended
          obtain ⟨v, st, performed, kept, frames, shown⟩ :=
            perform_collect level collects holds made r
          obtain ⟨values, st', rest, kept', frames', shows_⟩ :=
            ih (t := { t with store := st }) (i := i + 1) (collects.mono kept frames)
              (holds.mono kept) (limit.map (· - 1)) { r with collected := v :: r.collected }
          refine ⟨v :: values, st', ?_, kept.trans kept', frames.trans frames', ?_⟩
          · rw [rounds_succ ended, assigns, conditions, leftOver_succ, countsAfter_succ]
            refine (bind_of_ok _ rfl).trans ((bind_of_ok _ rfl).trans ?_)
            refine (bind_of_ok _ performed).trans (rest.trans ?_)
            simp
          · rw [roundsLeft_succ room left, rowsFrom_of_row? made, List.map_cons]
            exact .cons (shown.mono kept') shows_

end Rounds

/-! ## Before the first round -/

/-- The operand of a clause that runs through a sequence is that sequence, as a constant. -/
def LoopClause.IsConstant (st : Store) : LoopClause → Prop
  | .each _ _ operand items => st.ConstantSequence operand items
  | _ => True

theorem LoopClause.IsConstant.mono {c : LoopClause} (constant : c.IsConstant st)
    (kept : st.DataKeptIn st') : c.IsConstant st' := by
  cases c with
  | each => exact Store.ConstantSequence.mono constant kept
  | _ => trivial

section Preparation

variable {t : Session} (level frame : Nat) (room : t.depth < t.config.maxDepth)
include room

theorem eval_int (n : Int64) :
    (Interp.ofLevel (level + 1)).eval (.int n) frame t = .ok (.int n) t := by
  show evalForm (.ofLevel level) (.int n) frame t = _
  have noSymbol (name : String) : Value.int n ≠ .symbol name := nofun
  have noPair (ref : Nat) : Value.int n ≠ .cons ref := nofun
  exact steady_atom t noSymbol noPair (.ofLevel level) t frame ⟨rfl, rfl⟩ rfl room

omit room in
/-- An operand of a clause with the items of the sequence that it evaluates to. -/
def sequenceOf (I : Interp) (frame : Nat) (operand : String × Value) :
    Eval (String × List Value) := do
  return (operand.1, ← sequenceElements (← I.eval operand.2 frame))

/-- The operands of sequences are evaluated to sequences of the items. -/
theorem sequences_eq (clauses : List LoopClause)
    (unbound : ∀ name ∈ ["quote", vectorMark], t.functions.contains name = false)
    (constant : ∀ c ∈ clauses, c.IsConstant t.store) :
    ∃ sequences store,
      (clauses.filterMap LoopClause.sequence?).mapM
          (sequenceOf (Interp.ofLevel (level + 1)) frame) t =
        .ok sequences { t with store } ∧
      t.store.DataKeptIn store ∧ store.frames = t.store.frames ∧
        HoldItems store clauses sequences := by
  induction clauses generalizing t with
  | nil => exact ⟨[], t.store, rfl, .refl _, rfl, .nil⟩
  | cons c clauses ih =>
      rw [List.forall_mem_cons] at constant
      cases c with
      | each var across operand items =>
          obtain ⟨v, st, values, evaluated, kept, frames, elements, all⟩ :=
            evalForm_constantSequence constant.1 unbound room (.ofLevel level) frame
          obtain ⟨sequences, st', rest, kept', frames', holds⟩ :=
            ih (t := { t with store := st }) room unbound
              fun c member => (constant.2 c member).mono kept
          refine ⟨(var, values) :: sequences, st', ?_, kept.trans kept', frames'.trans frames,
            .cons ⟨rfl, Store.showsAll_mono all kept'⟩ holds⟩
          have first : sequenceOf (Interp.ofLevel (level + 1)) frame (var, operand) t =
              .ok (var, values) { t with store := st } :=
            (bind_of_ok _ evaluated).trans (bind_of_ok _ elements)
          show ((var, operand) :: clauses.filterMap LoopClause.sequence?).mapM
            (sequenceOf (Interp.ofLevel (level + 1)) frame) t = _
          rw [List.mapM_cons, bind_of_ok _ first, bind_of_ok _ rest]
          rfl
      | _ => exact ih room unbound constant.2

/-- A count starts with the integers that are written. -/
theorem begin_int (var : String) (start step : Int64) (positive : 0 < step.toInt)
    (stop : Option Int64) (ending : CountEnd) :
    CountClause.begin (.ofLevel (level + 1)) frame
        ⟨var, .int start, .int step, stop.map .int, ending⟩ t =
      .ok { var, value := start, step, stop := stop.getD 0, ending } t := by
  have evaluated := eval_int level frame room
  have size : stepSize? step = some step := by
    rw [stepSize?, if_neg (by rintro rfl; exact absurd positive (by decide)), abs?,
      fixed?_eq_some_iff, Int.natAbs_of_nonneg positive.le]
  have int {β : Type} (n : Int64) (rest : Int64 → Eval β) :
      ((Interp.ofLevel (level + 1)).eval (.int n) frame >>= fun v => integer v >>= rest) t =
        rest n t :=
    (bind_of_ok _ (evaluated n)).trans rfl
  unfold CountClause.begin
  rw [int start]
  cases stop with
  | none =>
      refine (int step _).trans ?_
      rw [size]
      rfl
  | some stop =>
      refine (int stop _).trans ((int step _).trans ?_)
      rw [size]
      rfl

theorem begin_eq {c : LoopClause} {k : CountClause} (forward : c.StepsForward)
    (counts : c.count? = some k) :
    ∃ counter, c.counter? = some counter ∧
      k.begin (.ofLevel (level + 1)) frame t = .ok counter t := by
  cases c with
  | each | times => cases counts
  | below | upTo =>
      cases counts
      exact ⟨_, rfl, begin_int level frame room _ 0 1 (by decide) (some _) _⟩
  | count var upfrom start step stop stopFirst =>
      cases counts
      refine ⟨_, rfl, ?_⟩
      have started := begin_int level frame room var start (step.getD 1) forward
        (stop.map Prod.snd) (stop.elim .unbounded fun s => s.1.ending)
      rw [Option.map_map] at started
      exact started

theorem counters_eq (clauses : List LoopClause) (forward : ∀ c ∈ clauses, c.StepsForward) :
    (clauses.filterMap LoopClause.count?).mapM (·.begin (.ofLevel (level + 1)) frame) t =
      .ok (clauses.filterMap LoopClause.counter?) t := by
  induction clauses with
  | nil => rfl
  | cons c clauses ih =>
      rw [List.forall_mem_cons] at forward
      cases counts : c.count? with
      | none =>
          have none : c.counter? = none := by cases c <;> first | rfl | cases counts
          rw [List.filterMap_cons_none counts, List.filterMap_cons_none none, ih forward.2]
      | some k =>
          obtain ⟨counter, starts, begun⟩ := begin_eq level frame room forward.1 counts
          rw [List.filterMap_cons_some counts, List.filterMap_cons_some starts, List.mapM_cons,
            bind_of_ok _ begun, bind_of_ok _ (ih forward.2)]
          rfl

/-- The limit of a loop is the last number of rounds that `repeat` gives. -/
def limit? (clauses : List LoopClause) : Option Nat :=
  (clauses.filterMap LoopClause.times?).getLast?.map fun n => n.toInt.toNat

omit room in
theorem roundsLeft_limit? (clauses : List LoopClause) :
    roundsLeft maxRounds (limit? clauses) = allowed clauses := by
  unfold allowed limit?
  cases (clauses.filterMap LoopClause.times?).getLast? <;> rfl

/-- Before the first round the sequences, the counts and the limit are evaluated. -/
theorem prepareLoop_collecting (clauses : List LoopClause) (form : Value)
    (unbound : ∀ name ∈ ["quote", vectorMark], t.functions.contains name = false)
    (constant : ∀ c ∈ clauses, c.IsConstant t.store)
    (forward : ∀ c ∈ clauses, c.StepsForward) :
    ∃ sequences store,
      prepareLoop (.ofLevel (level + 1)) frame (.collecting clauses form) t =
        .ok (limit? clauses, sequences, clauses.filterMap LoopClause.counter?) { t with store } ∧
      t.store.DataKeptIn store ∧ store.frames = t.store.frames ∧
        HoldItems store clauses sequences := by
  obtain ⟨sequences, store, evaluated, kept, frames, holds⟩ :=
    sequences_eq level frame room clauses unbound constant
  refine ⟨sequences, store, ?_, kept, frames, holds⟩
  have begun := counters_eq (t := { t with store }) level frame room clauses forward
  refine (bind_of_ok _ rfl).trans ((bind_of_ok _ evaluated).trans ((bind_of_ok _ begun).trans ?_))
  unfold LoopSpec.collecting limit?
  cases (clauses.filterMap LoopClause.times?).getLast? with
  | none => rfl
  | some n =>
      have evaluated := eval_int (t := { t with store }) level frame room n
      exact (bind_of_ok _ evaluated).trans rfl

end Preparation

/-! ## The whole loop -/

/-- What a loop needs whose clauses run through constants, and that collects the list of its
variables. -/
structure RunsInStep (s : Session) (clauses : List LoopClause) (form : Value) : Prop where
  lists : s.store.Lists form (.symbol "list" :: (clauses.filterMap LoopClause.var?).map .symbol)
  unbound : ∀ name ∈ ["cl-loop", "list", "quote", vectorMark], s.functions.contains name = false
  ordinary : ∀ x ∈ clauses.filterMap LoopClause.var?, s.isSpecial x = false
  once : (clauses.filterMap LoopClause.var?).Nodup
  constant : ∀ c ∈ clauses, c.IsConstant s.store
  forward : ∀ c ∈ clauses, c.StepsForward

/-- A loop within a call collects the tuples of its streams. -/
theorem clLoop_collecting {s : Session} {clauses : List LoopClause} {form : Value}
    (level frame : Nat) (runs : RunsInStep s clauses form)
    (room : s.depth + 1 < s.config.maxDepth) :
    ∃ v store, clLoop (.ofLevel (level + 2))
          (clauses.flatMap LoopClause.forms ++ [.symbol "collect", form]) frame s =
        .ok v { s with store } ∧
      s.store.DataKeptIn store ∧ store.Shows v (.ofList ((lockstep clauses).map .ofList)) := by
  let framed := s.withFrame frame
  have kept : s.store.DataKeptIn framed.store := ⟨fun _ _ there => there, fun _ _ there => there⟩
  obtain ⟨sequences, st, prepared, keptStart, frames, holds⟩ :=
    prepareLoop_collecting (t := framed) (level + 1) s.store.frames.size
      (Nat.lt_of_succ_lt room) clauses form
      (fun name member => runs.unbound name (by
        simp only [List.mem_cons, List.not_mem_nil, or_false] at member ⊢
        exact .inr (.inr member)))
      (fun c member => (runs.constant c member).mono kept) runs.forward
  have keptSoFar := kept.trans keptStart
  have collects : Collects { framed with store := st } s.store.frames.size clauses form := {
    lists := runs.lists.mono keptSoFar.pairs
    unbound := runs.unbound "list" (by simp)
    room
    ordinary := runs.ordinary
    once := runs.once
    forward := runs.forward
    there := frames ▸ s.size_frames_withFrame frame }
  obtain ⟨values, st', made, keptRounds, -, shown⟩ :=
    @rounds_collect clauses 0 sequences _ _ _ (.collecting clauses form) level rfl rfl collects
      holds maxRounds (limit? clauses) {}
  have start : leftOver 0 sequences = sequences := by simp [leftOver]
  have counts : countsAfter 0 clauses = clauses.filterMap LoopClause.counter? := List.map_id _
  rw [start, counts] at made
  rw [roundsLeft_limit?] at shown
  obtain ⟨keptList, -⟩ := st'.list_keeps values
  refine ⟨(st'.list values).1, (st'.list values).2, ?_,
    keptSoFar.trans (keptRounds.trans keptList),
    (Store.lists_list st' values).1.shows (Store.showsAll_mono shown keptList)⟩
  rw [clLoop_eq (ofForms_collecting clauses form s) rfl]
  refine (bind_of_ok _ prepared).trans ((bind_of_ok _ made).trans ?_)
  rw [List.append_nil]
  unfold LoopAction.value
  rw [List.reverse_reverse]
  rfl

/-- A `cl-loop` whose clauses run through constant sequences, count, or say how often to repeat,
and that collects the list of its variables, ends with the list of the tuples of its streams,
cut at the shortest one, at the number of rounds that `repeat` gives, and at that of rounds that
any loop may make.  No data that were there change, and of the rest of the session nothing. -/
theorem ends_clLoop_collect {s : Session} {form listForm : Value} (clauses : List LoopClause)
    (isLoop : s.store.IsList form (.symbol "cl-loop")
      (clauses.flatMap LoopClause.forms ++ [.symbol "collect", listForm]))
    (runs : RunsInStep s clauses listForm) (room : s.depth + 2 < s.config.maxDepth) (frame : Nat) :
    ∃ v store, Interp.Ends form frame s (.ok v { s with store }) ∧ s.store.DataKeptIn store ∧
      store.Shows v (.ofList ((lockstep clauses).map .ofList)) := by
  have inside : RunsInStep { s with depth := s.depth + 1 } clauses listForm := { runs with }
  obtain ⟨v, store, made, kept, shown⟩ := clLoop_collecting 0 frame inside room
  refine ⟨v, store, ?_, kept, shown⟩
  suffices ended : (Interp.ofLevel 3).eval form frame s = .ok v { s with store } from
    .of_eq ended nofun
  exact (evalForm_special (by omega) isLoop (runs.unbound _ (by simp)) rfl).trans
    (ensuring_of_ok _ made)

/-- The pairs of a loop that runs through the last integers and some characters. -/
def lastIntegers : Store where
  pairs := #[⟨.symbol "y", .nil⟩, ⟨.symbol "x", .cons 0⟩, ⟨.symbol "list", .cons 1⟩,
    ⟨.cons 2, .nil⟩, ⟨.symbol "collect", .cons 3⟩, ⟨.str 0 "abc", .cons 4⟩,
    ⟨.symbol "across", .cons 5⟩, ⟨.symbol "y", .cons 6⟩, ⟨.symbol "for", .cons 7⟩,
    ⟨.int 9223372036854775806, .cons 8⟩, ⟨.symbol "from", .cons 9⟩, ⟨.symbol "x", .cons 10⟩,
    ⟨.symbol "for", .cons 11⟩, ⟨.symbol "cl-loop", .cons 12⟩]

/-- The clauses of that loop. -/
def lastClauses : List LoopClause :=
  [.count "x" false 9223372036854775806 none none false,
    .each "y" true (.str 0 "abc") (ValueTree.codes "abc")]

theorem runsInStep_lastClauses : RunsInStep { store := lastIntegers } lastClauses (.cons 2) where
  lists := by
    have last : lastIntegers.Lists (.cons 0) [.symbol "y"] := .cons (p := ⟨_, _⟩) rfl .nil
    exact .cons (p := ⟨_, _⟩) rfl (.cons (p := ⟨_, _⟩) rfl last)
  unbound := by decide
  ordinary := by decide
  once := by decide
  constant := by
    intro c member
    rcases List.mem_pair.mp member with rfl | rfl
    · trivial
    · exact .text 0 "abc"
  forward := by
    intro c member
    rcases List.mem_pair.mp member with rfl | rfl
    · exact (by decide : 0 < (1 : Int64).toInt)
    · trivial

theorem lockstep_lastClauses : lockstep lastClauses =
    [[LoopClause.number 9223372036854775806, LoopClause.number 97],
      [LoopClause.number 9223372036854775807, LoopClause.number 98]] := by
  rfl

/-- A count ends with the greatest integer, one item before the sequence beside it. -/
theorem ends_clLoop_last :
    ∃ v store, Interp.Ends (.cons 13) 0 { store := lastIntegers } (.ok v { store }) ∧
      store.Shows v (.ofList [.ofList [LoopClause.number 9223372036854775806, LoopClause.number 97],
        .ofList [LoopClause.number 9223372036854775807, LoopClause.number 98]]) := by
  have isLoop : lastIntegers.IsList (.cons 13) (.symbol "cl-loop")
      (lastClauses.flatMap LoopClause.forms ++ [.symbol "collect", .cons 2]) :=
    ⟨⟨13, rfl⟩, rfl, rfl⟩
  obtain ⟨v, store, ended, -, shown⟩ :=
    ends_clLoop_collect lastClauses isLoop runsInStep_lastClauses (by decide) 0
  rw [lockstep_lastClauses] at shown
  exact ⟨v, store, ended, shown⟩
end EditorLisp.Forms
