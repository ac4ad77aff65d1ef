import EditorLisp.Proofs.Forms.Loop
import EditorLisp.Proofs.Number.Numeral
import EditorLisp.Proofs.Store.Tree

/-!
# Clauses that run in step

The clauses of `cl-loop` that take one value of a stream in each round: `in` and `across` take
the items of a sequence, and the others count.  A list of such clauses, written out one after
the other, is read as the loop that has all of them, and the stream of a counting clause ends
where its bound or the machine word does.
-/

namespace EditorLisp.Forms

open Eval Number

/-! ## Clauses as they are written -/

/-- The words that give a count its end. -/
inductive StopWord where
  | to
  | upto
  | below
  | downto
deriving DecidableEq

namespace StopWord

def word : StopWord → String
  | .to => "to"
  | .upto => "upto"
  | .below => "below"
  | .downto => "downto"

def ending : StopWord → CountEnd
  | .to | .upto => .upTo
  | .below => .below
  | .downto => .downTo

end StopWord

/-- A clause whose operands are constants.  That of a sequence comes with the items of the
sequence. -/
inductive LoopClause where
  /-- `for VAR in SEQUENCE`, or with `across`. -/
  | each (var : String) (across : Bool) (operand : Value) (items : List ValueTree)
  /-- `for VAR from START`, or with `upfrom`; a step and an end may follow in either order. -/
  | count (var : String) (upfrom : Bool) (start : Int64) (step : Option Int64)
      (stop : Option (StopWord × Int64)) (stopFirst : Bool)
  /-- `for VAR below STOP`. -/
  | below (var : String) (stop : Int64)
  /-- `for VAR to STOP`. -/
  | upTo (var : String) (stop : Int64)
  /-- `repeat TIMES`. -/
  | times (n : Int64)

namespace LoopClause

/-- The words of a step. -/
def stepForms (step : Option Int64) : List Value :=
  step.elim [] fun n => [.symbol "by", .int n]

/-- The words of an end. -/
def stopForms (stop : Option (StopWord × Int64)) : List Value :=
  stop.elim [] fun (word, n) => [.symbol word.word, .int n]

/-- The forms of a clause. -/
def forms : LoopClause → List Value
  | each var across operand _ =>
    [.symbol "for", .symbol var, .symbol (if across then "across" else "in"), operand]
  | count var upfrom start step stop stopFirst =>
    [.symbol "for", .symbol var, .symbol (if upfrom then "upfrom" else "from"), .int start] ++
      if stopFirst then stopForms stop ++ stepForms step else stepForms step ++ stopForms stop
  | below var stop => [.symbol "for", .symbol var, .symbol "below", .int stop]
  | upTo var stop => [.symbol "for", .symbol var, .symbol "to", .int stop]
  | times n => [.symbol "repeat", .int n]

/-- The variable of a clause. -/
def var? : LoopClause → Option String
  | each var _ _ _ | count var _ _ _ _ _ | below var _ | upTo var _ => some var
  | times _ => none

/-- What a clause runs through. -/
def sequence? : LoopClause → Option (String × Value)
  | each var _ operand _ => some (var, operand)
  | _ => none

/-- What a clause counts. -/
def count? : LoopClause → Option CountClause
  | count var _ start step stop _ =>
    some ⟨var, .int start, .int (step.getD 1), stop.map fun s => .int s.2,
      stop.elim .unbounded fun s => s.1.ending⟩
  | below var stop => some ⟨var, .int 0, .int 1, some (.int stop), .below⟩
  | upTo var stop => some ⟨var, .int 0, .int 1, some (.int stop), .upTo⟩
  | _ => none

/-- The number of rounds that a clause allows. -/
def times? : LoopClause → Option Int64
  | times n => some n
  | _ => none

/-- A loop with one more clause. -/
def extend (spec : LoopSpec) (c : LoopClause) : LoopSpec :=
  { spec with
    sequences := spec.sequences ++ c.sequence?.toList
    counts := spec.counts ++ c.count?.toList
    limit := (c.times?.map Value.int).or spec.limit }

end LoopClause

/-! ## Reading clauses -/

section Reading

variable {spec : LoopSpec} {count : CountClause} {rest : List Value}

/-- No word of a count comes next. -/
def EndsCount (rest : List Value) : Prop :=
  ∀ word ∈ ["by", "to", "upto", "downto", "below"], rest.head?.bind Value.symbolName? ≠ some word

theorem countWords_of_endsCount (ends : EndsCount rest) (fuel : Nat) (count : CountClause) :
    countWords count fuel rest = .ok (count, rest) := by
  cases fuel with
  | zero => rfl
  | succ fuel =>
      have none (word : String) (member : word ∈ ["by", "to", "upto", "downto", "below"]) :=
        ends word member
      simp only [List.mem_cons, List.not_mem_nil, or_false, forall_eq_or_imp, forall_eq] at none
      simp only [countWords, none, or_self, if_false]

theorem countWords_step (fuel : Nat) (n : Int64) :
    countWords count (fuel + 1) (.symbol "by" :: .int n :: rest) =
      countWords { count with step := .int n } fuel rest := rfl

theorem countWords_stop (fuel : Nat) (word : StopWord) (n : Int64) :
    countWords count (fuel + 1) (.symbol word.word :: .int n :: rest) =
      countWords { count with ending := word.ending, stop := some (.int n) } fuel rest := by
  cases word <;> rfl

theorem readFor_each (var : String) (across : Bool) (operand : Value) :
    readFor spec (.symbol var :: .symbol (if across then "across" else "in") :: operand :: rest) =
      .ok ({ spec with sequences := spec.sequences ++ [(var, operand)] }, rest) := by
  cases across <;> rfl

theorem readFor_count (ends : EndsCount rest) (var : String) (upfrom : Bool) (start : Int64)
    (step : Option Int64) (stop : Option (StopWord × Int64)) (stopFirst : Bool) :
    readFor spec (.symbol var :: .symbol (if upfrom then "upfrom" else "from") :: .int start ::
        ((if stopFirst then LoopClause.stopForms stop ++ LoopClause.stepForms step
          else LoopClause.stepForms step ++ LoopClause.stopForms stop) ++ rest)) =
      .ok ({ spec with
        counts := spec.counts ++ [⟨var, .int start, .int (step.getD 1), stop.map fun s => .int s.2,
          stop.elim .unbounded fun s => s.1.ending⟩] }, rest) := by
  have reads (count : CountClause) (more : Nat) := countWords_of_endsCount ends more count
  have opened (words : List Value) :
      readFor spec (.symbol var :: .symbol (if upfrom then "upfrom" else "from") :: .int start ::
        words) = (do
          let read ← countWords ⟨var, .int start, .int 1, none, .unbounded⟩ words.length words
          return ({ spec with counts := spec.counts ++ [read.1] }, read.2)) := by
    cases upfrom <;> rfl
  rw [opened]
  cases step <;> cases stop <;> cases stopFirst <;>
    simp [LoopClause.stepForms, LoopClause.stopForms, countWords_step, countWords_stop, reads,
      bind, Except.bind, pure, Except.pure]

theorem readClauses_append (c : LoopClause) (ends : EndsCount rest) (fuel : Nat) :
    readClauses (fuel + 1) spec (c.forms ++ rest) = readClauses fuel (c.extend spec) rest := by
  have byFor {forms : List Value} (read : readFor spec forms = .ok (c.extend spec, rest)) :
      readClauses (fuel + 1) spec (.symbol "for" :: forms) =
        readClauses fuel (c.extend spec) rest := by
    show (do
      let read ← readFor spec forms
      readClauses fuel read.1 read.2) = _
    rw [read]
    rfl
  cases c with
  | each var across operand items =>
      apply byFor
      refine (readFor_each var across operand).trans ?_
      simp [LoopClause.extend, LoopClause.sequence?, LoopClause.count?, LoopClause.times?]
  | count var upfrom start step stop stopFirst =>
      apply byFor
      refine (readFor_count ends var upfrom start step stop stopFirst).trans ?_
      simp [LoopClause.extend, LoopClause.sequence?, LoopClause.count?, LoopClause.times?]
  | below var stop =>
      apply byFor
      simp [LoopClause.extend, LoopClause.sequence?, LoopClause.count?, LoopClause.times?]
      rfl
  | upTo var stop =>
      apply byFor
      simp [LoopClause.extend, LoopClause.sequence?, LoopClause.count?, LoopClause.times?]
      rfl
  | times n =>
      simp [LoopClause.extend, LoopClause.sequence?, LoopClause.count?, LoopClause.times?]
      rfl

/-- What stands behind a clause is another clause or the action, and neither starts with a
word of a count. -/
theorem endsCount_forms (clauses : List LoopClause) (form : Value) :
    EndsCount (clauses.flatMap LoopClause.forms ++ [.symbol "collect", form]) := by
  intro word member
  rw [List.mem_cons, List.mem_cons, List.mem_cons, List.mem_cons, List.mem_singleton] at member
  cases clauses with
  | nil => rcases member with rfl | rfl | rfl | rfl | rfl <;> simp [Value.symbolName?]
  | cons c clauses =>
      cases c <;> rcases member with rfl | rfl | rfl | rfl | rfl <;>
        simp [LoopClause.forms, Value.symbolName?]

/-- The loop that collects a form and has some clauses.  Where several give a number of rounds,
the last one counts. -/
def LoopSpec.collecting (clauses : List LoopClause) (form : Value) : LoopSpec where
  sequences := clauses.filterMap LoopClause.sequence?
  counts := clauses.filterMap LoopClause.count?
  limit := (clauses.filterMap LoopClause.times?).getLast?.map Value.int
  action := some (.collect form)

theorem filterMap_cons_eq {α β : Type} (f : α → Option β) (a : α) (as : List α) :
    (a :: as).filterMap f = (f a).toList ++ as.filterMap f := by
  cases h : f a <;> simp [h]

theorem foldl_extend (clauses : List LoopClause) (spec : LoopSpec) :
    clauses.foldl LoopClause.extend spec =
      { spec with
        sequences := spec.sequences ++ clauses.filterMap LoopClause.sequence?
        counts := spec.counts ++ clauses.filterMap LoopClause.count?
        limit :=
          ((clauses.filterMap LoopClause.times?).getLast?.map Value.int).or spec.limit } := by
  induction clauses generalizing spec with
  | nil => simp
  | cons c clauses ih =>
      have last : ∀ n : Option Int64, n.toList.getLast? = n := by
        intro n
        cases n <;> rfl
      rw [List.foldl_cons, ih, LoopClause.extend]
      simp only [filterMap_cons_eq, List.append_assoc, List.getLast?_append, last, Option.map_or,
        Option.or_assoc]

theorem readClauses_forms (clauses : List LoopClause) (form : Value) (spec : LoopSpec)
    (fuel : Nat) :
    readClauses (clauses.length + (fuel + 2)) spec
        (clauses.flatMap LoopClause.forms ++ [.symbol "collect", form]) =
      .ok { clauses.foldl LoopClause.extend spec with action := some (.collect form) } := by
  induction clauses generalizing spec with
  | nil =>
      rw [List.length_nil, Nat.zero_add]
      rfl
  | cons c clauses ih =>
      rw [List.flatMap_cons, List.append_assoc, List.length_cons, Nat.succ_add_eq_add_succ]
      exact (readClauses_append c (endsCount_forms clauses form) _).trans (ih _)

/-- Clauses that are written out one after the other are read as the loop that has them. -/
theorem ofForms_collecting (clauses : List LoopClause) (form : Value) (s : Session) :
    LoopSpec.ofForms (clauses.flatMap LoopClause.forms ++ [.symbol "collect", form]) s =
      .ok (.collecting clauses form) s := by
  have long : clauses.length ≤ (clauses.flatMap LoopClause.forms).length := by
    induction clauses with
    | nil => exact Nat.le_refl 0
    | cons c clauses ih =>
        rw [List.flatMap_cons, List.length_append, List.length_cons, Nat.add_comm]
        have : 1 ≤ c.forms.length := by cases c <;> simp [LoopClause.forms]
        exact Nat.add_le_add this ih
  obtain ⟨more, size⟩ := Nat.exists_eq_add_of_le long
  have fuel : (clauses.flatMap LoopClause.forms ++ [Value.symbol "collect", form]).length =
      clauses.length + (more + 2) := by
    rw [List.length_append, size, Nat.add_assoc]
    rfl
  have read := readClauses_forms clauses form {} more
  rw [foldl_extend] at read
  unfold LoopSpec.ofForms
  rw [fuel, read]
  simp only [List.nil_append, Option.or_none]
  rfl

end Reading

/-! ## Counting -/

namespace Counter

/-- Where a count would be after some steps. -/
def reach (c : Counter) (i : Nat) : Int :=
  if c.ending = .downTo then c.value.toInt - i * c.step.toInt
  else c.value.toInt + i * c.step.toInt

/-- The value of a new count after some steps, up to its end or that of the machine word. -/
def at? (c : Counter) (i : Nat) : Option Int64 :=
  (fixed? (c.reach i)).filter fun n => { c with value := n }.inRange

variable {c : Counter}

theorem reach_succ (c : Counter) (i : Nat) :
    c.reach (i + 1) =
      if c.ending = .downTo then c.reach i - c.step.toInt else c.reach i + c.step.toInt := by
  unfold reach
  rw [Int.natCast_add, Int.natCast_one, Int.add_mul, Int.one_mul]
  split <;> omega

/-- A count that has left the machine word does not come back. -/
theorem reach_succ_none (positive : 0 < c.step.toInt) {i : Nat}
    (out : fixed? (c.reach i) = none) : fixed? (c.reach (i + 1)) = none := by
  have lower := c.value.minValue_le_toInt
  have upper := c.value.toInt_le
  have moved : 0 ≤ (i : Int) * c.step.toInt := Int.mul_nonneg (Int.natCast_nonneg i) positive.le
  rw [fixed?_eq_none_iff] at out ⊢
  rw [reach_succ]
  by_cases down : c.ending = .downTo
  · rw [reach, if_pos down] at out ⊢
    rw [if_pos down]
    omega
  · rw [reach, if_neg down] at out ⊢
    rw [if_neg down]
    omega

theorem advance_eq (c : Counter) : c.advance =
    match fixed? (if c.ending = .downTo then c.value.toInt - c.step.toInt
      else c.value.toInt + c.step.toInt) with
    | some value => { c with value }
    | none => { c with exhausted := true } := by
  unfold advance sub? add?
  cases c.ending <;> rfl

/-- After some steps a new count has either the value that it would have or is exhausted. -/
theorem advance_iterate (positive : 0 < c.step.toInt) (i : Nat) :
    (∃ n, fixed? (c.reach i) = some n ∧ advance^[i] c = { c with value := n }) ∨
      fixed? (c.reach i) = none ∧ (advance^[i] c).exhausted = true := by
  induction i with
  | zero =>
      refine .inl ⟨c.value, ?_, rfl⟩
      simp [reach, fixed?_toInt]
  | succ i ih =>
      rw [Function.iterate_succ_apply', advance_eq]
      rcases ih with ⟨n, reached, same⟩ | ⟨out, ended⟩
      · have next : fixed? (c.reach (i + 1)) =
            fixed? (if c.ending = .downTo then n.toInt - c.step.toInt
              else n.toInt + c.step.toInt) := by
          rw [reach_succ, fixed?_eq_some_iff.mp reached]
        rw [same, ← next]
        cases fits : fixed? (c.reach (i + 1)) with
        | some value => exact .inl ⟨value, rfl, rfl⟩
        | none => exact .inr ⟨rfl, rfl⟩
      · refine .inr ⟨reach_succ_none positive out, ?_⟩
        split
        · exact ended
        · rfl

/-- A count is in range for as long as it has a value, and then it has that value. -/
theorem at?_eq (positive : 0 < c.step.toInt) (i : Nat) :
    c.at? i = if (advance^[i] c).inRange then some (advance^[i] c).value else none := by
  unfold at?
  rcases advance_iterate positive i with ⟨n, reached, same⟩ | ⟨out, ended⟩
  · rw [reached, same, Option.filter_some]
  · rw [out, Option.filter_none]
    simp [inRange, ended]

end Counter

/-! ## Streams -/

/-- Whether a count with an end may have a value. -/
def StopWord.admits (word : StopWord) (stop n : Int64) : Bool :=
  match word with
  | .to | .upto => n ≤ stop
  | .below => n < stop
  | .downto => stop ≤ n

/-- The value of a count after some steps: what is that far from the start, downward if the end
says so, provided that it fits the machine word and is not past the end. -/
def countAt? (start step : Int64) (stop : Option (StopWord × Int64)) (i : Nat) : Option Int64 :=
  (fixed? (if stop.any (·.1 = .downto) then start.toInt - i * step.toInt
    else start.toInt + i * step.toInt)).filter
    fun n => stop.all fun s => s.1.admits s.2 n

namespace LoopClause

/-- The tree of an integer. -/
def number (n : Int64) : ValueTree := .atom (.other (.int n))

/-- The stream of a clause. -/
def at? : LoopClause → Nat → Option ValueTree
  | each _ _ _ items, i => items[i]?
  | count _ _ start step stop _, i => (countAt? start (step.getD 1) stop i).map number
  | below _ stop, i => (countAt? 0 1 (some (.below, stop)) i).map number
  | upTo _ stop, i => (countAt? 0 1 (some (.to, stop)) i).map number
  | times _, _ => none

/-- The items that a clause runs through. -/
def items? : LoopClause → Option (String × List ValueTree)
  | each var _ _ items => some (var, items)
  | _ => none

/-- A new count of a clause. -/
def counter? : LoopClause → Option Counter
  | count var _ start step stop _ =>
    some { var, value := start, step := step.getD 1, stop := (stop.map Prod.snd).getD 0,
           ending := stop.elim .unbounded fun s => s.1.ending }
  | below var stop => some { var, value := 0, step := 1, stop, ending := .below }
  | upTo var stop => some { var, value := 0, step := 1, stop, ending := .upTo }
  | _ => none

/-- The step of a clause counts upward before its direction is looked at. -/
def StepsForward : LoopClause → Prop
  | count _ _ _ step _ _ => 0 < (step.getD 1).toInt
  | _ => True

variable {c : LoopClause} {counter : Counter}

theorem step_pos (forward : c.StepsForward) (counts : c.counter? = some counter) :
    0 < counter.step.toInt := by
  cases c with
  | count => cases counts; exact forward
  | below | upTo => cases counts; exact (by decide : 0 < (1 : Int64).toInt)
  | each | times => cases counts

/-- The stream of a counting clause is that of its count. -/
theorem at?_of_counter? (counts : c.counter? = some counter) (i : Nat) :
    c.at? i = (counter.at? i).map number := by
  cases c with
  | each | times => cases counts
  | below | upTo => cases counts; rfl
  | count var upfrom start step stop stopFirst =>
      cases counts
      rcases stop with _ | ⟨word, n⟩
      · rfl
      · cases word <;> rfl

end LoopClause

/-! ## Lists beside each other -/

section Beside

variable {α β : Type} {R : α → β → Prop} {f : α → Option β} {as : List α} {bs : List β}

theorem exists_of_forall₂ {a : α} (all : List.Forall₂ R as bs) (member : a ∈ as) :
    ∃ b ∈ bs, R a b := by
  induction all with
  | nil => cases member
  | cons first _ ih =>
      rcases List.mem_cons.mp member with rfl | later
      · exact ⟨_, List.mem_cons_self, first⟩
      · obtain ⟨b, member, related⟩ := ih later
        exact ⟨b, List.mem_cons_of_mem _ member, related⟩

theorem exists_of_forall₂_right {b : β} (all : List.Forall₂ R as bs) (member : b ∈ bs) :
    ∃ a ∈ as, R a b :=
  exists_of_forall₂ all.flip member

theorem getElem?_of_forall₂ {b : β} (all : List.Forall₂ R as bs) {i : Nat}
    (there : bs[i]? = some b) : ∃ a, as[i]? = some a ∧ R a b := by
  obtain ⟨inside, rfl⟩ := List.getElem?_eq_some_iff.mp there
  have inside' := all.length_eq.symm ▸ inside
  exact ⟨_, List.getElem?_eq_getElem inside', (List.forall₂_iff_get.mp all).2 i inside' inside⟩

theorem forall₂_of_mapM (made : as.mapM f = some bs) :
    List.Forall₂ (fun a b => f a = some b) as bs := by
  induction as generalizing bs with
  | nil =>
      cases made
      exact .nil
  | cons a as ih =>
      rw [List.mapM_cons] at made
      obtain ⟨b, first, made⟩ := Option.bind_eq_some_iff.mp made
      obtain ⟨bs', rest, made⟩ := Option.bind_eq_some_iff.mp made
      cases made
      exact .cons first (ih rest)

theorem mapM_of_forall₂ (all : List.Forall₂ (fun a b => f a = some b) as bs) :
    as.mapM f = some bs := by
  induction all with
  | nil => rfl
  | cons first _ ih => simp [List.mapM_cons, first, ih]

theorem exists_mapM (all : ∀ a ∈ as, ∃ b, f a = some b) : ∃ bs, as.mapM f = some bs := by
  induction as with
  | nil => exact ⟨[], rfl⟩
  | cons a as ih =>
      rw [List.forall_mem_cons] at all
      obtain ⟨b, first⟩ := all.1
      obtain ⟨bs, rest⟩ := ih all.2
      exact ⟨b :: bs, by simp [List.mapM_cons, first, rest]⟩

end Beside

/-! ## The tuples -/

/-- The tuple of a round, if every stream has a value left. -/
def row? (clauses : List LoopClause) (i : Nat) : Option (List ValueTree) :=
  (clauses.filter (·.var?.isSome)).mapM (·.at? i)

/-- The tuples of the rounds from one round on, of which so many may be made. -/
def rowsFrom (clauses : List LoopClause) : Nat → Nat → List (List ValueTree)
  | 0, _ => []
  | room + 1, i =>
    match row? clauses i with
    | some row => row :: rowsFrom clauses room (i + 1)
    | none => []

/-- The number of rounds that the clauses of a loop allow. -/
def allowed (clauses : List LoopClause) : Nat :=
  match (clauses.filterMap LoopClause.times?).getLast? with
  | some n => min maxRounds n.toInt.toNat
  | none => maxRounds

/-- The tuples of the streams, cut at the shortest one and at the number of rounds. -/
def lockstep (clauses : List LoopClause) : List (List ValueTree) :=
  rowsFrom clauses (allowed clauses) 0

/-- Counting on changes neither the variable nor the step. -/
theorem Counter.iterate_keeps (c : Counter) (i : Nat) :
    (Counter.advance^[i] c).var = c.var ∧ (Counter.advance^[i] c).step = c.step := by
  induction i with
  | zero => exact ⟨rfl, rfl⟩
  | succ i ih =>
      rw [Function.iterate_succ_apply', Counter.advance_eq, ← ih.1, ← ih.2]
      split <;> exact ⟨rfl, rfl⟩

namespace LoopClause

variable {c : LoopClause} {t : ValueTree}

/-- The stream of a counting clause has the value of the count, as long as that is in range. -/
theorem at?_eq {k : Counter} (forward : c.StepsForward) (counts : c.counter? = some k) (i : Nat) :
    c.at? i = if (Counter.advance^[i] k).inRange then
      some (number (Counter.advance^[i] k).value) else none := by
  rw [at?_of_counter? counts, Counter.at?_eq (step_pos forward counts)]
  split <;> rfl

end LoopClause

end EditorLisp.Forms
