import EditorLisp.Proofs.Forms.Lockstep

/-!
# Loops that count

A `cl-loop` that counts one variable and collects it gives the values of the count: as long as they
are not past the end and as many as there are rounds.  A value that would leave the machine word is
past every end, so nothing wraps around.

The direction of a count and the kind of its end are one and the same thing.  The word after the
start says both, and so `downfrom` is forgotten when `to` follows.
-/

namespace EditorLisp.Forms

open Eval Number

/-! ## The values of a count -/

namespace Counter

/-- The values of a count in so many rounds. -/
def values (c : Counter) : Nat → List Int64
  | 0 => []
  | room + 1 => if c.inRange then c.value :: c.advance.values room else []

/-- Whether an integer is not past the end of a count. -/
def admits (c : Counter) (n : Int) : Bool :=
  match c.ending with
  | .upTo => n ≤ c.stop.toInt
  | .downTo => c.stop.toInt ≤ n
  | .below => n < c.stop.toInt
  | .unbounded => true

variable {c : Counter}

theorem inRange_eq (fresh : c.exhausted = false) : c.inRange = c.admits c.value.toInt := by
  unfold inRange admits
  rw [fresh]
  cases c.ending <;> simp [Int64.le_iff_toInt_le, Int64.lt_iff_toInt_lt]

theorem reach_zero (c : Counter) : c.reach 0 = c.value.toInt := by
  simp [reach]

theorem reach_one (c : Counter) :
    c.reach 1 = if c.ending = .downTo then c.value.toInt - c.step.toInt
      else c.value.toInt + c.step.toInt := by
  rw [← Nat.zero_add 1, reach_succ, reach_zero]

/-- One step further on a count reaches everything one step earlier. -/
theorem reach_of_reach_one {n : Int64} (moved : c.reach 1 = n.toInt) (i : Nat) :
    { c with value := n }.reach i = c.reach (i + 1) := by
  rw [reach_one] at moved
  unfold reach
  rw [← moved, Int.natCast_add, Int.natCast_one, Int.add_mul, Int.one_mul]
  dsimp only
  split <;> omega

theorem values_of_exhausted (ended : c.exhausted = true) (room : Nat) : c.values room = [] := by
  cases room with
  | zero => rfl
  | succ room => simp [values, inRange, ended]

/-- What leaves the machine word is past the end, whatever the end is. -/
theorem admits_eq_false (bounded : c.ending ≠ .unbounded) (positive : 0 < c.step.toInt)
    (out : fixed? (c.reach 1) = none) : c.admits (c.reach 1) = false := by
  have lower := c.value.minValue_le_toInt
  have upper := c.value.toInt_le
  have stopLower := c.stop.minValue_le_toInt
  have stopUpper := c.stop.toInt_le
  rw [fixed?_eq_none_iff] at out
  unfold admits
  unfold reach at out ⊢
  cases ending : c.ending with
  | unbounded => exact absurd ending bounded
  | downTo =>
      rw [ending, if_pos rfl] at out
      simp only [if_true, decide_eq_false_iff_not]
      omega
  | upTo | below =>
      rw [ending, if_neg nofun] at out
      simp only [reduceCtorEq, if_false, decide_eq_false_iff_not]
      omega

/-- The values of a count are those that lie its steps apart from its start, up to its end.  The
induction is on the rounds, each of which starts a count one step further on. -/
theorem map_toInt_values (fresh : c.exhausted = false) (bounded : c.ending ≠ .unbounded)
    (positive : 0 < c.step.toInt) (room : Nat) :
    (c.values room).map Int64.toInt = ((List.range room).map c.reach).takeWhile c.admits := by
  induction room generalizing c with
  | zero => rfl
  | succ room ih =>
      have steps : (List.range (room + 1)).map c.reach =
          c.value.toInt :: (List.range room).map fun i => c.reach (i + 1) := by
        rw [List.range_succ_eq_map, List.map_cons, List.map_map, reach_zero]
        rfl
      rw [values, inRange_eq fresh, steps, List.takeWhile_cons]
      split
      next =>
          rw [List.map_cons, advance_eq, ← reach_one]
          refine congrArg (c.value.toInt :: ·) ?_
          cases next : fixed? (c.reach 1) with
          | some n =>
              have rest := ih (c := { c with value := n }) fresh bounded positive
              rw [funext (reach_of_reach_one (fixed?_eq_some_iff.mp next))] at rest
              exact rest
          | none =>
              rw [values_of_exhausted rfl]
              cases room with
              | zero => rfl
              | succ room =>
                  rw [List.range_succ_eq_map, List.map_cons, Nat.zero_add,
                    List.takeWhile_cons_of_neg]
                  · rfl
                  · rw [admits_eq_false bounded positive next]
                    exact Bool.false_ne_true
      next => rfl

end Counter

/-! ## The rounds of a count -/

section Rounds

variable {t : Session} {frame : Nat} {spec : LoopSpec}

/-- A round that collects a variable which it has defined collects its value. -/
theorem perform_collect_variable (level : Nat) {x : String} {v : Value}
    {bindings : List (String × Value)} (ordinary : t.isSpecial x = false)
    (deep : t.depth < t.config.maxDepth) (there : frame < t.store.frames.size)
    (defined : lastBound? bindings x = some v) (r : LoopResult) :
    (LoopAction.collect (.symbol x)).perform (.ofLevel (level + 1)) frame r
        (startRound frame bindings t) =
      .ok { r with collected := v :: r.collected } (startRound frame bindings t) := by
  have bound : (t.store.defineAll frame bindings).varIn? frame x = some v :=
    (Store.varIn?_defineAll there bindings x).trans (by rw [defined, Option.some_or])
  have known : (startRound frame bindings t).valueIn? x frame = some v :=
    Session.valueIn?_of_lookupIn? (s := startRound frame bindings t) ordinary
      (Store.lookupIn?_of_varIn? bound)
  have evaluated : (Interp.ofLevel (level + 1)).eval (.symbol x) frame
      (startRound frame bindings t) = .ok v (startRound frame bindings t) :=
    evalForm_symbol (I := .ofLevel level) (s := startRound frame bindings t) deep known
  exact (bind_of_ok _ evaluated).trans rfl

/-- Round by round the values of a count are collected. -/
theorem rounds_values (level : Nat) (assigns : spec.assigns = [])
    (conditions : spec.conditions = []) {x : String} (ordinary : t.isSpecial x = false)
    (deep : t.depth < t.config.maxDepth) (there : frame < t.store.frames.size) {c : Counter}
    (named : c.var = x) (room : Nat) (r : LoopResult) :
    ∃ store, rounds (.ofLevel (level + 1)) frame spec (.collect (.symbol x)) room none [] [c] r t =
        .ok { r with collected := ((c.values room).map .int).reverse ++ r.collected }
          { t with store } ∧
      t.store.DataKeptIn store := by
  induction room generalizing t c r with
  | zero => exact ⟨t.store, rfl, .refl _⟩
  | succ room ih =>
      have isOver_eq : isOver none [] [c] = !c.inRange := by simp [isOver]
      cases goesOn : c.inRange with
      | false =>
          rw [goesOn] at isOver_eq
          refine ⟨t.store, ?_, .refl _⟩
          unfold isOver at isOver_eq
          rw [rounds, isOver_eq, Counter.values, goesOn]
          rfl
      | true =>
          rw [goesOn] at isOver_eq
          let started := startRound frame (heads [] [c]) t
          have kept : t.store.DataKeptIn started.store := dataKeptIn_defineAll t.store frame _
          have frames : started.store.frames.size = t.store.frames.size :=
            Store.size_frames_defineAll t.store frame _
          have defined : lastBound? (heads [] [c]) x = some (.int c.value) :=
            named ▸ lastBound?_concat [] c.var _
          have performed := perform_collect_variable level ordinary deep there defined r
          have sameVariable : c.advance.var = x := (Counter.iterate_keeps c 1).1.trans named
          obtain ⟨store, made, later⟩ := ih (t := started) ordinary deep (frames ▸ there)
            sameVariable { r with collected := .int c.value :: r.collected }
          refine ⟨store, ?_, kept.trans later⟩
          rw [rounds_succ isOver_eq, assigns, conditions]
          refine (bind_of_ok _ rfl).trans ((bind_of_ok _ rfl).trans ?_)
          refine (bind_of_ok _ performed).trans (made.trans ?_)
          simp [Counter.values, goesOn, started, startRound]

end Rounds

/-! ## A loop that counts -/

/-- The clauses of a loop that counts one variable from a start, downward at first, and collects
it.  The step and the end are given in either order. -/
def downfromForms (x : String) (start step : Int64) (word : StopWord) (stop : Int64)
    (stopFirst : Bool) : List Value :=
  [.symbol "for", .symbol x, .symbol "downfrom", .int start] ++
    (if stopFirst then LoopClause.stopForms (some (word, stop)) ++ LoopClause.stepForms (some step)
      else LoopClause.stepForms (some step) ++ LoopClause.stopForms (some (word, stop))) ++
    [.symbol "collect", .symbol x]

variable {s : Session} {x : String} {start step stop : Int64} {word : StopWord} {stopFirst : Bool}

/-- What such a loop is read as. -/
def downfromSpec (x : String) (start step : Int64) (word : StopWord) (stop : Int64) : LoopSpec where
  counts := [⟨x, .int start, .int step, some (.int stop), word.ending⟩]
  action := some (.collect (.symbol x))

/-- The word of the end replaces what `downfrom` has said. -/
theorem ofForms_downfrom (x : String) (start step : Int64) (word : StopWord) (stop : Int64)
    (stopFirst : Bool) (s : Session) :
    LoopSpec.ofForms (downfromForms x start step word stop stopFirst) s =
      .ok (downfromSpec x start step word stop) s := by
  cases word <;> cases stopFirst <;> rfl

/-- The count of such a loop. -/
def downfromCounter (x : String) (start step : Int64) (word : StopWord) (stop : Int64) : Counter :=
  { var := x, value := start, step, stop, ending := word.ending }

variable (stopFirst) in
/-- A loop within a call makes a list of the values of its count. -/
theorem clLoop_downfrom (level frame : Nat) (ordinary : s.isSpecial x = false)
    (room : s.depth < s.config.maxDepth) (positive : 0 < step.toInt) :
    ∃ v store, clLoop (.ofLevel (level + 1)) (downfromForms x start step word stop stopFirst) frame
          s = .ok v { s with store } ∧
      s.store.DataKeptIn store ∧
      store.Lists v (((downfromCounter x start step word stop).values maxRounds).map .int) := by
  let framed := s.withFrame frame
  let count := downfromCounter x start step word stop
  have kept : s.store.DataKeptIn framed.store := ⟨fun _ _ there => there, fun _ _ there => there⟩
  have begun := begin_int (t := framed) level s.store.frames.size room x start step positive
    (some stop) word.ending
  have prepared : prepareLoop (.ofLevel (level + 1)) s.store.frames.size
      (downfromSpec x start step word stop) framed = .ok (none, [], [count]) framed := by
    refine (bind_of_ok _ rfl).trans ((bind_of_ok _ rfl).trans ?_)
    exact bind_of_ok _ ((bind_of_ok _ begun).trans rfl)
  have assigns : (downfromSpec x start step word stop).assigns = [] := rfl
  obtain ⟨store, made, later⟩ := rounds_values (t := framed) level assigns rfl ordinary room
    (s.size_frames_withFrame frame) (c := count) rfl maxRounds {}
  let items := (count.values maxRounds).map Value.int
  obtain ⟨keptList, -⟩ := store.list_keeps items
  refine ⟨(store.list items).1, (store.list items).2, ?_, kept.trans (later.trans keptList),
    (Store.lists_list store items).1⟩
  rw [clLoop_eq (ofForms_downfrom x start step word stop stopFirst s) rfl]
  refine (bind_of_ok _ prepared).trans ((bind_of_ok _ made).trans ?_)
  rw [List.append_nil]
  unfold LoopAction.value
  rw [List.reverse_reverse]
  rfl

section Ranges

variable {many : Nat} {from_ to_ by_ : Int}

/-- The integers from one down to another, a step apart, but only so many of them. -/
def countedDown (many : Nat) (from_ to_ by_ : Int) : List Int :=
  ((List.range many).map fun i : Nat => from_ - i * by_).takeWhile (to_ ≤ ·)

/-- The integers from one up to another, a step apart, but only so many of them. -/
def countedUp (many : Nat) (from_ to_ by_ : Int) : List Int :=
  ((List.range many).map fun i : Nat => from_ + i * by_).takeWhile (· ≤ to_)

/-- What comes before the first integer past the end. -/
theorem takeWhile_range {f : Nat → Int} {admits : Int → Bool} {k : Nat} (rounds : k < many)
    (inside : ∀ i < k, admits (f i) = true) (past : admits (f k) = false) :
    ((List.range many).map f).takeWhile admits = (List.range k).map f := by
  obtain ⟨more, rfl⟩ : ∃ more, many = k + (more + 1) := ⟨many - k - 1, by omega⟩
  have before : ∀ n ∈ (List.range k).map f, admits n = true := by
    intro n member
    obtain ⟨i, isBefore, rfl⟩ := List.mem_map.mp member
    exact inside i (List.mem_range.mp isBefore)
  have stops : ¬admits (f (k + 0)) = true := by
    rw [Nat.add_zero, past]
    exact Bool.false_ne_true
  rw [List.range_add, List.map_append, List.takeWhile_append_of_pos before, List.range_succ_eq_map,
    List.map_cons, List.map_cons, List.takeWhile_cons_of_neg stops, List.append_nil]

theorem countedDown_self (rounds : 1 < many) (positive : 0 < by_) :
    countedDown many from_ from_ by_ = [from_] := by
  rw [countedDown, takeWhile_range rounds]
  · simp
  · simp
  · simp
    omega

theorem countedUp_self (rounds : 1 < many) (positive : 0 < by_) :
    countedUp many from_ from_ by_ = [from_] := by
  rw [countedUp, takeWhile_range rounds]
  · simp
  · simp
  · simp
    omega

end Ranges

theorem values_downto (positive : 0 < step.toInt) (many : Nat) :
    ((downfromCounter x start step .downto stop).values many).map Int64.toInt =
      countedDown many start.toInt stop.toInt step.toInt :=
  Counter.map_toInt_values (c := downfromCounter x start step .downto stop) rfl nofun positive many

theorem values_to (positive : 0 < step.toInt) (many : Nat) :
    ((downfromCounter x start step .to stop).values many).map Int64.toInt =
      countedUp many start.toInt stop.toInt step.toInt :=
  Counter.map_toInt_values (c := downfromCounter x start step .to stop) rfl nofun positive many

section Whole

variable {form : Value} (isLoop : s.store.IsList form (.symbol "cl-loop")
    (downfromForms x start step word stop stopFirst))
  (unbound : s.functions.contains "cl-loop" = false) (ordinary : s.isSpecial x = false)
  (room : s.depth + 1 < s.config.maxDepth) (positive : 0 < step.toInt) (frame : Nat)
include isLoop unbound ordinary room positive

/-- The form of such a loop ends with a list of the values of its count. -/
theorem ends_clLoop_values :
    ∃ v store, Interp.Ends form frame s (.ok v { s with store }) ∧ s.store.DataKeptIn store ∧
      store.Lists v (((downfromCounter x start step word stop).values maxRounds).map .int) := by
  obtain ⟨v, store, made, kept, lists⟩ := clLoop_downfrom (s := { s with depth := s.depth + 1 })
    stopFirst 0 frame ordinary room positive
  refine ⟨v, store, ?_, kept, lists⟩
  suffices ended : (Interp.ofLevel 2).eval form frame s = .ok v { s with store } from
    .of_eq ended nofun
  exact (evalForm_special (by omega) isLoop unbound rfl).trans (ensuring_of_ok _ made)

/-- A `cl-loop` that counts with `downfrom` and collects the variable, with a step of at least one
and the step and the end in either order.  With `downto` it gives the integers from the start down
to the end.  With `to` it gives those from the start up to the end, so that the two are the same
if the start is the end. -/
theorem ends_clLoop_downfrom :
    ∃ v store, ∃ ns : List Int64, Interp.Ends form frame s (.ok v { s with store }) ∧
      s.store.DataKeptIn store ∧ store.Lists v (ns.map .int) ∧
      (word = .downto ∨ word = .to ∧ start = stop →
        ns.map Int64.toInt = countedDown maxRounds start.toInt stop.toInt step.toInt) ∧
      (word = .to →
        ns.map Int64.toInt = countedUp maxRounds start.toInt stop.toInt step.toInt) := by
  obtain ⟨v, store, ended, kept, lists⟩ :=
    ends_clLoop_values isLoop unbound ordinary room positive frame
  refine ⟨v, store, _, ended, kept, lists, ?_, ?_⟩
  · rintro (rfl | ⟨rfl, rfl⟩)
    · exact values_downto positive maxRounds
    · have many : 1 < maxRounds := by decide
      rw [values_to positive, countedUp_self many positive, countedDown_self many positive]
  · rintro rfl
    exact values_to positive maxRounds

end Whole

/-- The pairs of a loop that counts down with `downto` and of one that does so with `to`. -/
def countdowns : Store where
  pairs := #[⟨.symbol "x", .nil⟩, ⟨.symbol "collect", .cons 0⟩, ⟨.int 3, .cons 1⟩,
    ⟨.symbol "by", .cons 2⟩, ⟨.int Int64.minValue, .cons 3⟩, ⟨.symbol "downto", .cons 4⟩,
    ⟨.int (-9223372036854775804), .cons 5⟩, ⟨.symbol "downfrom", .cons 6⟩,
    ⟨.symbol "x", .cons 7⟩, ⟨.symbol "for", .cons 8⟩, ⟨.symbol "cl-loop", .cons 9⟩,
    ⟨.int 2, .cons 1⟩, ⟨.symbol "to", .cons 11⟩, ⟨.int 1, .cons 12⟩, ⟨.symbol "by", .cons 13⟩,
    ⟨.int 3, .cons 14⟩, ⟨.symbol "downfrom", .cons 15⟩, ⟨.symbol "x", .cons 16⟩,
    ⟨.symbol "for", .cons 17⟩, ⟨.symbol "cl-loop", .cons 18⟩]

theorem isList_countdowns :
    countdowns.IsList (.cons 10) (.symbol "cl-loop")
        (downfromForms "x" (-9223372036854775804) 3 .downto Int64.minValue true) ∧
      countdowns.IsList (.cons 19) (.symbol "cl-loop") (downfromForms "x" 3 1 .to 2 false) :=
  ⟨⟨⟨10, rfl⟩, rfl, rfl⟩, ⟨⟨19, rfl⟩, rfl, rfl⟩⟩

/-- A count down to the least integer stops before it would leave the machine word. -/
theorem ends_clLoop_downfrom_least :
    ∃ v store, Interp.Ends (.cons 10) 0 { store := countdowns } (.ok v { store }) ∧
      store.Lists v [.int (-9223372036854775804), .int (-9223372036854775807)] := by
  obtain ⟨v, store, ns, ended, -, lists, down, -⟩ :=
    ends_clLoop_downfrom (s := { store := countdowns }) isList_countdowns.1 rfl rfl (by decide)
      (by decide) 0
  have two : countedDown maxRounds (-9223372036854775804) Int64.minValue.toInt 3 =
      [-9223372036854775804, -9223372036854775807] :=
    takeWhile_range (k := 2) (by decide) (by decide) (by decide)
  have values : ns = [-9223372036854775804, -9223372036854775807] :=
    List.map_injective_iff.mpr (fun _ _ => Int64.toInt_inj.mp) ((down (.inl rfl)).trans two)
  rw [values] at lists
  exact ⟨v, store, ended, lists⟩

/-- With `to`, the loop that starts behind its end collects nothing, although there are two
integers from its start down to its end. -/
theorem not_ends_clLoop_downfrom_to :
    countedDown maxRounds 3 2 1 = [3, 2] ∧
      ∃ store, Interp.Ends (.cons 19) 0 { store := countdowns } (.ok .nil { store }) := by
  have two : countedDown maxRounds 3 2 1 = [3, 2] :=
    takeWhile_range (k := 2) (by decide) (by decide) (by decide)
  obtain ⟨v, store, ended, -, lists⟩ :=
    ends_clLoop_values (s := { store := countdowns }) isList_countdowns.2 rfl rfl (by decide)
      (by decide) 0
  have none : ((downfromCounter "x" 3 1 .to 2).values maxRounds).map Int64.toInt = [] :=
    (values_to (by decide) maxRounds).trans
      (takeWhile_range (k := 0) (by decide) (by decide) (by decide))
  rw [List.map_eq_nil_iff.mp none] at lists
  cases lists
  exact ⟨two, store, ended⟩

end EditorLisp.Forms
