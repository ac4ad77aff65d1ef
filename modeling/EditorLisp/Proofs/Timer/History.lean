import EditorLisp.Proofs.Table
import EditorLisp.Session
import Mathlib.Order.Nat

/-!
# Histories of timers

A table of timers changes by registering a timer, forgetting one, stopping one, giving one
another period and noting that one has fired.  `make_cases` says what is found in a table after
such a change; what every history of a table keeps follows from it.

A number is given out once.  What is found under it later is the timer that was registered
then, and once that is stopped it stays so.  A period of zero comes about in one way only.

From one session to a later one the clock does not go back, and the table of timers goes
through changes that count from no instant before the first of the two.  The changes may be
asked to be of some kind, as those are that give no timer a period of zero.
-/

namespace EditorLisp

/-! ## One timer -/

namespace Timer

variable {timer timer' timer'' : Timer}

/-- A timer as it is registered. -/
def registered (id now delay : Nat) (period : Option Nat) (callback : Value) (args : List Value)
    (idle : Bool) : Timer :=
  { id, period := period.filter (· ≠ 0), callback, args, active := true, due := now + delay, idle }

/-- A timer after it has fired. -/
def fired (timer : Timer) (now : Nat) : Timer :=
  match timer.period with
  | some period => { timer with due := now + period }
  | none => { timer with active := false }

/-- What may become of a timer: it may be due at another time and get another period, and it may
be stopped, but not started again. -/
def Becomes (timer timer' : Timer) : Prop :=
  ∃ period active due, timer' = { timer with period, active, due } ∧
    (active = true → timer.active = true)

theorem Becomes.refl (timer : Timer) : timer.Becomes timer :=
  ⟨timer.period, timer.active, timer.due, rfl, fun active => active⟩

theorem Becomes.trans (first : timer.Becomes timer') (second : timer'.Becomes timer'') :
    timer.Becomes timer'' := by
  obtain ⟨_, _, _, rfl, before⟩ := first
  obtain ⟨period, active, due, rfl, between⟩ := second
  exact ⟨period, active, due, rfl, fun now => before (between now)⟩

theorem Becomes.id_eq (becomes : timer.Becomes timer') : timer'.id = timer.id := by
  obtain ⟨_, _, _, rfl, -⟩ := becomes
  rfl

theorem Becomes.active_of_active (becomes : timer.Becomes timer') (active : timer'.active = true) :
    timer.active = true := by
  obtain ⟨_, _, _, rfl, onlyIf⟩ := becomes
  exact onlyIf active

theorem becomes_fired (timer : Timer) (now : Nat) : timer.Becomes (timer.fired now) := by
  unfold fired
  split
  · exact ⟨_, _, _, rfl, fun active => active⟩
  · exact ⟨_, _, _, rfl, fun active => absurd active Bool.false_ne_true⟩

@[simp]
theorem period_fired (timer : Timer) (now : Nat) : (timer.fired now).period = timer.period := by
  unfold fired
  split <;> rfl

/-- A timer that fires once is not active afterwards. -/
theorem active_fired_of_once (once : timer.period = none) (now : Nat) :
    (timer.fired now).active = false := by
  rw [fired, once]

end Timer

namespace Timers

variable {t t' t'' : Timers} {id now : Nat} {timer : Timer}

/-! ## Changes -/

/-- A change of a table of timers. -/
inductive Change where
  | add (now delay : Nat) (period : Option Nat) (callback : Value) (args : List Value)
    (idle : Bool)
  | cancel (id : Nat)
  | deactivate (id : Nat)
  | setPeriod (id period now : Nat)
  | markFired (id now : Nat)

/-- Make a change. -/
def make (t : Timers) : Change → Timers
  | .add now delay period callback args idle => (t.add now delay period callback args idle).2
  | .cancel id => t.cancel id
  | .deactivate id => t.deactivate id
  | .setPeriod id period now => t.setPeriod id period now
  | .markFired id now => t.markFired id now

/-- Make one change after the other. -/
def run (t : Timers) (changes : List Change) : Timers := changes.foldl make t

theorem run_append (t : Timers) (changes more : List Change) :
    t.run (changes ++ more) = (t.run changes).run more :=
  List.foldl_append

/-- What every change keeps is kept by a history whose changes are all of a kind. -/
theorem run_induction {P : Timers → Prop} {K : Change → Prop}
    (step : ∀ t change, K change → P t → P (t.make change)) {changes : List Change}
    (all : ∀ change ∈ changes, K change) (start : P t) : P (t.run changes) := by
  induction changes generalizing t with
  | nil => exact start
  | cons change rest ih =>
      exact ih (fun later member => all later (List.mem_cons_of_mem _ member))
        (step t change (all change List.mem_cons_self) start)

/-! ## Look-up after a change -/

/-- What a change makes of the timer with a number, if it is there. -/
inductive Change.Makes (id : Nat) : Change → Timer → Timer → Prop where
  | same (change : Change) (timer : Timer) : Makes id change timer timer
  | stopped (timer : Timer) : Makes id (.deactivate id) timer { timer with active := false }
  | retimed (timer : Timer) (period now : Nat) :
      Makes id (.setPeriod id period now) timer
        { timer with period := some period, due := now + period }
  | fired (timer : Timer) (now : Nat) : Makes id (.markFired id now) timer (timer.fired now)

theorem Change.Makes.becomes {change : Change} {timer' : Timer}
    (makes : change.Makes id timer timer') : timer.Becomes timer' := by
  cases makes with
  | same => exact .refl _
  | stopped => exact ⟨_, _, _, rfl, nofun⟩
  | retimed => exact ⟨_, _, _, rfl, fun active => active⟩
  | fired => exact timer.becomes_fired _

theorem get?_modify (t : Timers) (id other : Nat) (f : Timer → Timer) :
    get? { t with entries := t.entries.modify id f } other =
      if id = other then (t.get? other).map f else t.get? other :=
  Table.get?_modify ..

theorem get?_markFired_self (found : t.get? id = some timer) (now : Nat) :
    (t.markFired id now).get? id = some (timer.fired now) := by
  have fired : (t.markFired id now).get? id =
      if id = id then (t.get? id).map (·.fired now) else t.get? id := get?_modify ..
  rw [fired, if_pos rfl, found, Option.map_some]

/-- What is found after the change of one timer. -/
theorem found_modify {other : Nat} {f : Timer → Timer}
    (found : get? { t with entries := t.entries.modify id f } other = some timer) :
    ∃ old, t.get? other = some old ∧ (id = other ∧ timer = f old ∨ timer = old) := by
  rw [get?_modify] at found
  split at found
  next here =>
      obtain ⟨old, there, rfl⟩ := Option.map_eq_some_iff.mp found
      exact ⟨old, there, .inl ⟨here, rfl⟩⟩
  next => exact ⟨timer, found, .inr rfl⟩

/-- What is found after a change is the timer that was registered, or was there and was changed. -/
theorem make_cases {change : Change} (found : (t.make change).get? id = some timer) :
    (∃ now delay period callback args idle, change = .add now delay period callback args idle ∧
        id = t.nextId ∧ timer = .registered id now delay period callback args idle) ∨
      ∃ old, t.get? id = some old ∧ change.Makes id old timer := by
  cases change with
  | add now delay period callback args idle =>
      have after : (t.add now delay period callback args idle).2.get? id =
          if t.nextId = id then some (.registered t.nextId now delay period callback args idle)
          else t.get? id := Table.get?_insert ..
      rw [make, after] at found
      split at found
      next new =>
          cases found
          exact .inl ⟨_, _, _, _, _, _, rfl, new.symm, by rw [new]⟩
      next => exact .inr ⟨timer, found, .same ..⟩
  | cancel other =>
      have after : (t.cancel other).get? id = if other = id then none else t.get? id :=
        Table.get?_erase ..
      rw [make, after] at found
      exact .inr ⟨timer, (Option.ite_none_left_eq_some.mp found).2, .same ..⟩
  | deactivate other =>
      obtain ⟨old, there, ⟨rfl, rfl⟩ | rfl⟩ := found_modify found
      · exact .inr ⟨old, there, .stopped old⟩
      · exact .inr ⟨_, there, .same ..⟩
  | setPeriod other period now =>
      obtain ⟨old, there, ⟨rfl, rfl⟩ | rfl⟩ := found_modify found
      · exact .inr ⟨old, there, .retimed ..⟩
      · exact .inr ⟨_, there, .same ..⟩
  | markFired other now =>
      obtain ⟨old, there, ⟨rfl, rfl⟩ | rfl⟩ := found_modify (f := (·.fired now)) found
      · exact .inr ⟨old, there, .fired ..⟩
      · exact .inr ⟨_, there, .same ..⟩

theorem nextId_le_make (t : Timers) (change : Change) : t.nextId ≤ (t.make change).nextId := by
  cases change with
  | add => exact Nat.le_succ _
  | _ => exact Nat.le_refl _

theorem isActive_eq_true_iff :
    t.isActive id = true ↔ ∃ timer, t.get? id = some timer ∧ timer.active = true := by
  unfold isActive
  cases t.get? id <;> simp

theorem isActive_eq_false_iff :
    t.isActive id = false ↔ ∀ timer, t.get? id = some timer → timer.active = false := by
  unfold isActive
  cases t.get? id <;> simp

theorem isActive_deactivate_self (t : Timers) (id : Nat) :
    (t.deactivate id).isActive id = false := by
  refine isActive_eq_false_iff.mpr fun timer found => ?_
  obtain ⟨old, -, rfl⟩ := Option.map_eq_some_iff.mp ((get?_modify ..).trans (if_pos rfl) ▸ found)
  rfl

/-- A timer that fires once is not active when it has fired. -/
theorem isActive_markFired_of_once (found : t.get? id = some timer) (once : timer.period = none)
    (now : Nat) : (t.markFired id now).isActive id = false := by
  refine isActive_eq_false_iff.mpr fun timer' found' => ?_
  rw [get?_markFired_self found, Option.some.injEq] at found'
  rw [← found']
  exact Timer.active_fired_of_once once now

/-- A number was given out, and the timer with it is gone or not active. -/
def Stopped (t : Timers) (id : Nat) : Prop := id < t.nextId ∧ t.isActive id = false

/-! ## Tables in order -/

/-- The timers are listed in the order of their numbers, each under its own, and the number to be
given out next is greater than all of them. -/
structure WellFormed (t : Timers) : Prop where
  ordered : t.entries.Ordered
  id_eq : ∀ {id : Nat} {timer : Timer}, t.get? id = some timer → timer.id = id
  id_lt : ∀ {id : Nat} {timer : Timer}, t.get? id = some timer → id < t.nextId

theorem wellFormed_empty : WellFormed {} := ⟨List.Pairwise.nil, nofun, nofun⟩

theorem ordered_make (ordered : t.entries.Ordered) (change : Change) :
    (t.make change).entries.Ordered := by
  cases change with
  | add => exact Table.ordered_insert ordered ..
  | cancel id => exact Table.ordered_erase ordered id
  | deactivate id => exact Table.ordered_modify ordered id _
  | setPeriod id => exact Table.ordered_modify ordered id _
  | markFired id => exact Table.ordered_modify ordered id _

theorem WellFormed.make (wf : t.WellFormed) (change : Change) : (t.make change).WellFormed where
  ordered := ordered_make wf.ordered change
  id_eq found := by
    obtain ⟨_, _, _, _, _, _, rfl, rfl, rfl⟩ | ⟨old, there, makes⟩ := make_cases found
    · rfl
    · exact makes.becomes.id_eq.trans (wf.id_eq there)
  id_lt found := by
    obtain ⟨_, _, _, _, _, _, rfl, rfl, rfl⟩ | ⟨old, there, -⟩ := make_cases found
    · exact Nat.lt_succ_self _
    · exact Nat.lt_of_lt_of_le (wf.id_lt there) (nextId_le_make t change)

theorem WellFormed.run (wf : t.WellFormed) (changes : List Change) : (t.run changes).WellFormed :=
  run_induction (P := WellFormed) (K := fun _ => True) (fun _ change _ wf => wf.make change)
    (fun _ _ => trivial) wf

/-! ## Numbers that were given out -/

/-- What a table may become: more numbers may be given out, and what is found under one that
was given out before is what has become of the timer that was there. -/
structure Succeeds (t t' : Timers) : Prop where
  nextId_le : t.nextId ≤ t'.nextId
  becomes : ∀ {id : Nat} {timer' : Timer}, id < t.nextId → t'.get? id = some timer' →
    ∃ timer, t.get? id = some timer ∧ timer.Becomes timer'

namespace Succeeds

theorem refl (t : Timers) : t.Succeeds t :=
  ⟨Nat.le_refl _, fun _ found => ⟨_, found, .refl _⟩⟩

theorem trans (first : t.Succeeds t') (second : t'.Succeeds t'') : t.Succeeds t'' where
  nextId_le := Nat.le_trans first.nextId_le second.nextId_le
  becomes old found := by
    obtain ⟨_, between, later⟩ := second.becomes (Nat.lt_of_lt_of_le old first.nextId_le) found
    obtain ⟨timer, before, earlier⟩ := first.becomes old between
    exact ⟨timer, before, earlier.trans later⟩

/-- A number that was given out and is gone is not given out again. -/
theorem get?_eq_none (next : t.Succeeds t') (old : id < t.nextId) (gone : t.get? id = none) :
    t'.get? id = none := by
  refine Option.eq_none_iff_forall_ne_some.mpr fun timer' found => ?_
  obtain ⟨_, there, -⟩ := next.becomes old found
  rw [gone] at there
  cases there

/-- A timer that is stopped stays so. -/
theorem stopped (next : t.Succeeds t') (stopped : t.Stopped id) : t'.Stopped id := by
  refine ⟨Nat.lt_of_lt_of_le stopped.1 next.nextId_le, ?_⟩
  refine isActive_eq_false_iff.mpr fun timer' found => ?_
  obtain ⟨timer, there, becomes⟩ := next.becomes stopped.1 found
  have inactive := isActive_eq_false_iff.mp stopped.2 timer there
  exact Bool.eq_false_iff.mpr fun active =>
    Bool.eq_false_iff.mp inactive (becomes.active_of_active active)

end Succeeds

/-- No change makes a timer active that was not, or gives a number out a second time. -/
theorem succeeds_make (t : Timers) (change : Change) : t.Succeeds (t.make change) where
  nextId_le := nextId_le_make t change
  becomes old found := by
    obtain ⟨_, _, _, _, _, _, rfl, rfl, rfl⟩ | ⟨timer, there, makes⟩ := make_cases found
    · exact absurd old (Nat.lt_irrefl _)
    · exact ⟨timer, there, makes.becomes⟩

theorem succeeds_run (t : Timers) (changes : List Change) : t.Succeeds (t.run changes) :=
  run_induction (P := t.Succeeds) (K := fun _ => True)
    (fun _ change _ before => before.trans (succeeds_make _ change))
    (fun _ _ => trivial) (.refl t)

/-- The numbers that a history gives out. -/
def numbers (t : Timers) : List Change → List Nat
  | [] => []
  | .add now delay period callback args idle :: rest =>
    let (id, t) := t.add now delay period callback args idle
    id :: t.numbers rest
  | change :: rest => (t.make change).numbers rest

theorem le_of_mem_numbers {changes : List Change} {id : Nat} (member : id ∈ t.numbers changes) :
    t.nextId ≤ id := by
  induction changes generalizing t with
  | nil => cases member
  | cons change rest ih =>
      cases change with
      | add now delay period callback args idle =>
          rcases List.mem_cons.mp member with rfl | later
          · exact Nat.le_refl _
          · exact Nat.le_of_succ_le (ih later)
      | _ => exact Nat.le_trans (nextId_le_make t _) (ih (t := t.make _) member)

/-- Every number is greater than the ones that were given out before it. -/
theorem pairwise_numbers (t : Timers) (changes : List Change) :
    (t.numbers changes).Pairwise (· < ·) := by
  induction changes generalizing t with
  | nil => exact .nil
  | cons change rest ih =>
      cases change with
      | add now delay period callback args idle =>
          exact List.pairwise_cons.mpr ⟨fun _ later => le_of_mem_numbers later, ih _⟩
      | _ => exact ih _

/-! ## Periods -/

/-- The change gives a timer a period of zero. -/
def Change.SetsZero : Change → Prop
  | .setPeriod _ period _ => period = 0
  | _ => False

/-- No timer has a period of zero. -/
def Paced (t : Timers) : Prop := ∀ id timer, t.get? id = some timer → timer.period ≠ some 0

theorem paced_empty : Paced {} := nofun

/-- Registering a timer drops a period of zero; only a change of the period can set one. -/
theorem Paced.make (paced : t.Paced) (change : Change) (nonzero : ¬change.SetsZero) :
    (t.make change).Paced := by
  intro id timer found
  obtain ⟨_, _, _, _, _, _, rfl, rfl, rfl⟩ | ⟨old, there, makes⟩ := make_cases found
  · intro zero
    exact of_decide_eq_true (Option.filter_eq_some_iff.mp zero).2 rfl
  · cases makes with
    | same => exact paced id _ there
    | stopped => exact paced id old there
    | retimed => exact fun zero => nonzero (Option.some.inj zero)
    | fired =>
        rw [Timer.period_fired]
        exact paced id _ there

theorem Paced.run (paced : t.Paced) {changes : List Change}
    (nonzero : ∀ change ∈ changes, ¬change.SetsZero) : (t.run changes).Paced :=
  run_induction (P := Paced) (fun _ change nonzero paced => paced.make change nonzero) nonzero paced

/-! ## Rest -/

/-- The change does not count from an instant before this one. -/
def Change.NotBefore (instant : Nat) : Change → Prop
  | .setPeriod _ _ now | .markFired _ now => instant ≤ now
  | _ => True

/-- A number was given out, and what is found under it and active is due after an instant. -/
structure Rests (t : Timers) (id now : Nat) : Prop where
  id_lt : id < t.nextId
  later : ∀ {timer : Timer}, t.get? id = some timer → timer.active = true → now < timer.due

/-- In a table without periods of zero, a timer that has fired rests. -/
theorem WellFormed.rests_markFired (wf : t.WellFormed) (paced : t.Paced)
    (found : t.get? id = some timer) (now : Nat) : (t.markFired id now).Rests id now where
  id_lt := wf.id_lt found
  later {timer'} there active := by
    rw [get?_markFired_self found, Option.some.injEq] at there
    subst there
    cases again : timer.period with
    | none =>
        rw [Timer.active_fired_of_once again] at active
        cases active
    | some period =>
        have pause : 0 < period := Nat.pos_of_ne_zero fun zero =>
          paced id timer found (again.trans (congrArg some zero))
        rw [Timer.fired, again]
        exact Nat.lt_add_of_pos_right pause

/-- It rests on whatever happens to the table from that instant on, unless it is given a
period of zero. -/
theorem Rests.make (rests : t.Rests id now) (paced : t.Paced) {change : Change}
    (nonzero : ¬change.SetsZero) (after : change.NotBefore now) : (t.make change).Rests id now where
  id_lt := Nat.lt_of_lt_of_le rests.id_lt (nextId_le_make t change)
  later {timer'} found active := by
    obtain ⟨_, _, _, _, _, _, rfl, rfl, rfl⟩ | ⟨old, there, makes⟩ := make_cases found
    · exact absurd rests.id_lt (Nat.lt_irrefl _)
    · have before := rests.later there (makes.becomes.active_of_active active)
      cases makes with
      | same => exact before
      | stopped => exact before
      | retimed period instant =>
          exact Nat.lt_of_le_of_lt after (Nat.lt_add_of_pos_right (Nat.pos_of_ne_zero nonzero))
      | fired instant =>
          unfold Timer.fired
          split
          next period again =>
              exact Nat.lt_of_le_of_lt after
                (Nat.lt_add_of_pos_right (Nat.pos_of_ne_zero fun zero =>
                  paced id old there (again.trans (congrArg some zero))))
          next => exact before

theorem Rests.run (rests : t.Rests id now) (paced : t.Paced) {changes : List Change}
    (each : ∀ change ∈ changes, ¬change.SetsZero ∧ change.NotBefore now) :
    (t.run changes).Rests id now :=
  And.left <| run_induction (P := fun t => t.Rests id now ∧ t.Paced)
    (fun _ _ each both => ⟨both.1.make both.2 each.1 each.2, both.2.make _ each.1⟩) each
    ⟨rests, paced⟩

end Timers

/-! ## Time passing -/

/-- An instant before another is one that a change does not count from either. -/
theorem Timers.Change.NotBefore.mono {change : Change} {instant earlier : Nat}
    (after : change.NotBefore instant) (le : earlier ≤ instant) : change.NotBefore earlier := by
  cases change with
  | setPeriod => exact Nat.le_trans le after
  | markFired => exact Nat.le_trans le after
  | _ => trivial

namespace Session

open Timers

/-- Time passes from one session to another, with changes of a kind to the timers. -/
structure Passes (K : Change → Prop) (s s' : Session) : Prop where
  clock_le : s.clock ≤ s'.clock
  changed : ∃ changes, s'.timers = s.timers.run changes ∧
    ∀ change ∈ changes, K change ∧ change.NotBefore s.clock

namespace Passes

variable {K K' : Change → Prop} {s s' s'' : Session}

theorem of_eq (timers_eq : s'.timers = s.timers) (clock_le : s.clock ≤ s'.clock) :
    s.Passes K s' :=
  ⟨clock_le, [], timers_eq, nofun⟩

theorem refl (s : Session) : s.Passes K s := of_eq rfl (Nat.le_refl _)

theorem trans (first : s.Passes K s') (second : s'.Passes K s'') : s.Passes K s'' where
  clock_le := Nat.le_trans first.clock_le second.clock_le
  changed := by
    obtain ⟨changes, so, each⟩ := first.changed
    obtain ⟨more, so', each'⟩ := second.changed
    refine ⟨changes ++ more, by rw [so', so, run_append], fun change member => ?_⟩
    rcases List.mem_append.mp member with before | later
    · exact each change before
    · exact (each' change later).imp_right (·.mono first.clock_le)

/-- One more change. -/
theorem make (passes : s.Passes K s') (change : Change) (kind : K change)
    (after : change.NotBefore s.clock) :
    s.Passes K { s' with timers := s'.timers.make change } where
  clock_le := passes.clock_le
  changed := by
    obtain ⟨changes, so, each⟩ := passes.changed
    refine ⟨changes ++ [change], ?_, fun other member => ?_⟩
    · rw [run_append, ← so]
      rfl
    · rcases List.mem_append.mp member with before | last
      · exact each other before
      · rw [List.mem_singleton.mp last]
        exact ⟨kind, after⟩

theorem succeeds (passes : s.Passes K s') : s.timers.Succeeds s'.timers := by
  obtain ⟨changes, so, -⟩ := passes.changed
  rw [so]
  exact succeeds_run ..

theorem wellFormed (passes : s.Passes K s') (wf : s.timers.WellFormed) :
    s'.timers.WellFormed := by
  obtain ⟨changes, so, -⟩ := passes.changed
  rw [so]
  exact wf.run changes

end Passes

end Session

end EditorLisp
