import EditorLisp.Event
import EditorLisp.Proofs.Interpreter
import EditorLisp.Proofs.Timer.History
import Mathlib.Data.List.Nodup

/-!
# Firing timers

A driver asks for the timers that are due and fires them one after the other.  What a
timer calls may be any program, which may itself add, cancel and re-time timers, so the table
that a turn finds need not be the one that the batch was made from.  `fireTimer_of_active` says
what one turn does.  A function is called only for a timer that is active at its turn; one that
failed, or that fires once, is stopped after its turn and stays so, whatever is run later.
-/

/-!
## The timers that are due

The list of those that are due at an instant names every active timer whose time has come, and
no other, once.  It is in the order of their times and, among equals, of their numbers, since
the timers are kept in the order of their numbers and sorting by time leaves equals as they
were.
-/

namespace EditorLisp.Timers

variable {t : Timers} {id now : Nat} {timer : Timer}

/-- What a list of the timers that are due at an instant has to be. -/
structure Lists (t : Timers) (now : Nat) (ids : List Nat) : Prop where
  /-- It names exactly the active timers whose time has come. -/
  mem_iff : ∀ id, id ∈ ids ↔ ∃ timer, t.get? id = some timer ∧ timer.active = true ∧ timer.due ≤ now
  /-- It names none of them twice. -/
  nodup : ids.Nodup
  /-- It names the one that is due earlier first and, of two that are due at the same time, the
  one with the lesser number. -/
  inOrder : ids.Pairwise fun id id' => ∀ timer timer',
    t.get? id = some timer → t.get? id' = some timer' →
      timer.due < timer'.due ∨ timer.due = timer'.due ∧ id < id'

/-- The timers that are due, in the order of their numbers. -/
def dueTimers (t : Timers) (now : Nat) : List Timer :=
  t.entries.values.filter fun timer => timer.active && timer.due ≤ now

/-- Timers in the order of their times. -/
def sorted (timers : List Timer) : List Timer := timers.mergeSort fun a b => a.due ≤ b.due

theorem due_eq (t : Timers) (now : Nat) : t.due now = (sorted (t.dueTimers now)).map Timer.id := rfl

/-! ### Before sorting -/

/-- Every timer is listed under its number. -/
theorem WellFormed.mem_values_iff (wf : t.WellFormed) :
    timer ∈ t.entries.values ↔ t.get? timer.id = some timer := by
  constructor
  · intro listed
    obtain ⟨⟨id, _⟩, entry, rfl⟩ := List.mem_map.mp listed
    have found : t.get? id = some _ := Table.get?_of_mem_entries wf.ordered entry
    rwa [← wf.id_eq found] at found
  · intro found
    exact List.mem_map.mpr ⟨_, Table.mem_entries_of_get? found, rfl⟩

theorem WellFormed.mem_dueTimers_iff (wf : t.WellFormed) :
    timer ∈ t.dueTimers now ↔
      t.get? timer.id = some timer ∧ timer.active = true ∧ timer.due ≤ now := by
  rw [dueTimers, List.mem_filter, wf.mem_values_iff, Bool.and_eq_true, decide_eq_true_iff]

theorem WellFormed.pairwise_dueTimers (wf : t.WellFormed) (now : Nat) :
    (t.dueTimers now).Pairwise fun a b => a.id < b.id := by
  have numbered : t.entries.values.Pairwise fun a b => a.id < b.id := by
    refine List.pairwise_map.mpr (wf.ordered.imp_of_mem fun {e e'} first second before => ?_)
    have found : t.get? e.1 = some e.2 := Table.get?_of_mem_entries wf.ordered first
    have found' : t.get? e'.1 = some e'.2 := Table.get?_of_mem_entries wf.ordered second
    rwa [wf.id_eq found, wf.id_eq found']
  exact numbered.filter _

/-! ### Sorting -/

section Sorting

variable (timers : List Timer)

private theorem due_trans (a b c : Timer) (first : decide (a.due ≤ b.due) = true)
    (second : decide (b.due ≤ c.due) = true) : decide (a.due ≤ c.due) = true :=
  decide_eq_true (Nat.le_trans (of_decide_eq_true first) (of_decide_eq_true second))

private theorem due_total (a b : Timer) :
    (decide (a.due ≤ b.due) || decide (b.due ≤ a.due)) = true := by
  simpa using Nat.le_total a.due b.due

theorem sorted_perm : (sorted timers).Perm timers := List.mergeSort_perm ..

theorem pairwise_sorted : (sorted timers).Pairwise fun a b => a.due ≤ b.due :=
  (List.pairwise_mergeSort due_trans due_total timers).imp of_decide_eq_true

/-- Sorting leaves the timers that are due at one time in their order. -/
theorem filter_sorted (instant : Nat) :
    (sorted timers).filter (·.due = instant) = timers.filter (·.due = instant) := by
  have equals : (timers.filter (·.due = instant)).Pairwise fun a b =>
      decide (a.due ≤ b.due) = true :=
    List.pairwise_of_forall_mem_list fun a here b there => by
      rw [of_decide_eq_true (List.mem_filter.mp here).2,
        of_decide_eq_true (List.mem_filter.mp there).2]
      exact decide_eq_true (Nat.le_refl _)
  have kept := (List.sublist_mergeSort due_trans due_total equals List.filter_sublist).filter
    (·.due = instant)
  rw [List.filter_filter] at kept
  simp only [Bool.and_self] at kept
  exact (kept.eq_of_length ((sorted_perm timers).filter _).length_eq.symm).symm

/-- What is in the order of numbers before it is sorted is in the order of times and, among
equals, of numbers. -/
theorem pairwise_sorted_of_pairwise {timers : List Timer}
    (numbered : timers.Pairwise fun a b => a.id < b.id) :
    (sorted timers).Pairwise fun a b => a.due < b.due ∨ a.due = b.due ∧ a.id < b.id := by
  refine List.pairwise_iff_forall_sublist.mpr fun {a b} inOrder => ?_
  have notLater := List.pairwise_iff_forall_sublist.mp (pairwise_sorted timers) inOrder
  rcases Nat.lt_or_eq_of_le notLater with less | same
  · exact .inl less
  · have kept := inOrder.filter (·.due = b.due)
    rw [filter_sorted] at kept
    simp only [List.filter_cons, same, decide_true, if_true, List.filter_nil] at kept
    exact .inr ⟨same,
      List.pairwise_iff_forall_sublist.mp numbered (kept.trans List.filter_sublist)⟩

end Sorting

/-! ### The list -/

theorem WellFormed.mem_due_iff (wf : t.WellFormed) :
    id ∈ t.due now ↔
      ∃ timer, t.get? id = some timer ∧ timer.active = true ∧ timer.due ≤ now := by
  rw [due_eq, List.mem_map]
  constructor
  · rintro ⟨timer, listed, rfl⟩
    exact ⟨timer, wf.mem_dueTimers_iff.mp ((sorted_perm _).mem_iff.mp listed)⟩
  · rintro ⟨timer, found, isDue⟩
    have number := wf.id_eq found
    refine ⟨timer, (sorted_perm _).mem_iff.mpr (wf.mem_dueTimers_iff.mpr ⟨?_, isDue⟩), number⟩
    rwa [number]

theorem WellFormed.nodup_due (wf : t.WellFormed) (now : Nat) : (t.due now).Nodup := by
  rw [due_eq]
  refine ((sorted_perm _).map Timer.id).nodup_iff.mpr ?_
  exact List.pairwise_map.mpr ((wf.pairwise_dueTimers now).imp Nat.ne_of_lt)

/-- In a table in order, the list of the timers that are due is what it has to be. -/
theorem WellFormed.lists_due (wf : t.WellFormed) (now : Nat) : t.Lists now (t.due now) where
  mem_iff _ := wf.mem_due_iff
  nodup := wf.nodup_due now
  inOrder := by
    rw [due_eq, List.pairwise_map]
    refine (pairwise_sorted_of_pairwise (wf.pairwise_dueTimers now)).imp_of_mem
      fun {a b} first second before timer timer' found found' => ?_
    have here := (wf.mem_dueTimers_iff.mp ((sorted_perm _).mem_iff.mp first)).1
    have there := (wf.mem_dueTimers_iff.mp ((sorted_perm _).mem_iff.mp second)).1
    rw [here, Option.some.injEq] at found
    rw [there, Option.some.injEq] at found'
    rwa [← found, ← found']

/-- What rests is not due. -/
theorem WellFormed.not_mem_due_of_rests (wf : t.WellFormed) (rests : t.Rests id now) :
    id ∉ t.due now := by
  intro listed
  obtain ⟨timer, found, active, isDue⟩ := wf.mem_due_iff.mp listed
  exact Nat.not_le_of_lt (rests.later found active) isDue

end EditorLisp.Timers

/-! ## Sessions at a turn -/

namespace EditorLisp

/-- The session in which the function of a timer is called. -/
def Session.firing (s : Session) (id : Nat) : Session :=
  { s with clock := s.clock + 1, timers := s.timers.markFired id (s.clock + 1) }

/-- The timers after one of them has failed. -/
def Session.stopping (s : Session) (id : Nat) : Session :=
  { s with timers := s.timers.deactivate id }

namespace Eval

variable {s s' : Session} {id : Nat} {timer : Timer} {outcome : TimerOutcome}

instance restores_funcall (function : Value) (args : List Value) :
    Restores (funcall function args) := by
  unfold funcall
  infer_instance

instance restores_callTimer (timer : Timer) : Restores (callTimer timer) := by
  unfold callTimer
  refine Restores.branch (Restores.after fun _ => Restores.after fun result => ?_) inferInstance
  split
  · infer_instance
  · infer_instance

/-! ## One turn -/

/-- What has become of a timer whose function was left. -/
def failure (t : Session) (flow : Flow) : TimerOutcome :=
  if flow.condition?.any (t.conditions.handles "quit" ·) then .quit else .failed flow

/-- What becomes of a timer whose function has ended. -/
def settled (id : Nat) : Outcome Value → Outcome TimerOutcome
  | .ok value t => .ok (.fired value) t
  | .exit flow t => .ok (failure t flow) (t.stopping id)
  | .crashed t => .crashed t
  | .unfinished => .unfinished

/-- For a timer that is gone or not active nothing is done. -/
theorem fireTimer_of_inactive (inactive : s.timers.isActive id = false) :
    fireTimer id s = .ok .inactive s := by
  have none : (s.timers.get? id).filter Timer.active = none :=
    Option.filter_eq_none_iff.mpr fun timer found =>
      Bool.not_eq_true _ ▸ Timers.isActive_eq_false_iff.mp inactive timer found
  unfold fireTimer
  rw [bind_session _ s, none]
  rfl

/-- What is done once the period of an active timer was looked at. -/
def turn (id : Nat) (timer : Timer) : Eval TimerOutcome := do
  let now ← Primitives.readClock
  modify fun s => { s with timers := s.timers.markFired id now }
  match ← attempt (callTimer timer) with
  | .ok value => return .fired value
  | .error flow =>
    modify fun s => { s with timers := s.timers.deactivate id }
    let conditions ← get (·.conditions)
    if flow.condition?.any (conditions.handles "quit" ·) then return .quit
    else return .failed flow

theorem turn_eq (id : Nat) (timer : Timer) (s : Session) :
    turn id timer s = settled id (callTimer timer (s.firing id)) := by
  have noted : modify (fun t => { t with timers := t.timers.markFired id (s.clock + 1) })
      { s with clock := s.clock + 1 } = .ok () (s.firing id) := rfl
  unfold turn
  rw [bind_of_ok _ (Primitives.readClock_eq s), bind_of_ok _ noted]
  cases called : callTimer timer (s.firing id) with
  | ok value t => exact bind_of_ok _ (attempt_of_ok called)
  | exit flow t =>
      rw [bind_of_ok _ (attempt_of_exit called)]
      show (if flow.condition?.any (t.conditions.handles "quit" ·) then pure .quit
        else pure (.failed flow) : Eval TimerOutcome) (t.stopping id) =
          .ok (failure t flow) (t.stopping id)
      unfold failure
      split <;> rfl
  | _ =>
      show Eval.bind (attempt (callTimer timer)) _ (s.firing id) = _
      rw [Eval.bind, attempt, called]
      rfl

/-- For an active timer it is noted that it has fired, and then its function is called.  A
period that clocks cannot tell ends the run before that. -/
theorem fireTimer_of_active (found : s.timers.get? id = some timer) (active : timer.active = true) :
    fireTimer id s =
      if timer.period.all isWithinReach then settled id (callTimer timer (s.firing id))
      else .crashed s := by
  have here : (s.timers.get? id).filter Timer.active = some timer := by
    rw [found, Option.filter_some, if_pos active]
  unfold fireTimer
  rw [bind_session _ s, here, ← turn_eq]
  dsimp only
  cases again : timer.period with
  | none => rfl
  | some period =>
      show (Primitives.checkReach period >>= fun _ => turn id timer) s = _
      unfold Primitives.checkReach
      rw [Option.all_some]
      split <;> rfl

theorem kept_firing (wf : s.workspace.WellFormed) (id : Nat) : s.Kept (s.firing id) :=
  (Primitives.kept_ticked wf).making (.markFired id (s.clock + 1)) (Nat.le_succ _)

theorem leaves_settled {o : Outcome Value} (ended : o.Leaves s.Kept) (id : Nat) :
    (settled id o).Leaves s.Kept := by
  cases o with
  | ok => exact ended
  | exit => exact ended.making (.deactivate id) trivial
  | crashed => trivial
  | unfinished => trivial

instance restores_fireTimer (id : Nat) : Restores (fireTimer id) where
  restores s wf := by
    cases isActive : s.timers.isActive id with
    | false =>
        rw [fireTimer_of_inactive isActive]
        exact .refl wf
    | true =>
        obtain ⟨timer, found, active⟩ := Timers.isActive_eq_true_iff.mp isActive
        rw [fireTimer_of_active found active]
        have noted := kept_firing wf id
        have ended := ((restores_callTimer timer).restores _ noted.wellFormed).mono
          fun _ => noted.trans
        split
        · exact leaves_settled ended id
        · trivial

instance restores_fireTimers (batch : List Nat) : Restores (fireTimers batch) := by
  induction batch with
  | nil => exact .pure _
  | cons id rest ih =>
      unfold fireTimers
      infer_instance

/-- What a driver may count on when the turn of a timer has come and gone. -/
structure Turn (id : Nat) (outcome : TimerOutcome) (s s' : Session) : Prop where
  /-- Nothing is run for a timer that is gone or not active. -/
  skipped : s.timers.isActive id = false → outcome = .inactive ∧ s' = s
  /-- The function of an active timer is called, and the outcome is how it ended. -/
  called : s.timers.isActive id = true → ∃ timer, s.timers.get? id = some timer ∧
    settled id (callTimer timer (s.firing id)) = .ok outcome s'
  /-- A timer whose function failed is stopped. -/
  failed : outcome = .quit ∨ (∃ flow, outcome = .failed flow) → s'.timers.Stopped id
  /-- A timer that fires once is stopped. -/
  once : ∀ timer, s.timers.get? id = some timer → timer.period = none → s'.timers.Stopped id

/-- While the function of a timer runs no timer is started again. -/
theorem succeeds_of_settled {o : Outcome Value} (ended : o.Leaves (s.firing id).Kept)
    (settles : settled id o = .ok outcome s') : (s.firing id).timers.Succeeds s'.timers := by
  cases o with
  | ok value t =>
      cases settles
      exact ended.passes.succeeds
  | exit flow t =>
      cases settles
      exact ended.passes.succeeds.trans (Timers.succeeds_make _ (.deactivate id))
  | crashed => cases settles
  | unfinished => cases settles

/-- A timer whose function was left is not active. -/
theorem isActive_of_settled {o : Outcome Value} (settles : settled id o = .ok outcome s')
    (failed : outcome = .quit ∨ ∃ flow, outcome = .failed flow) :
    s'.timers.isActive id = false := by
  cases o with
  | ok value t =>
      cases settles
      rcases failed with quit | ⟨_, failed⟩
      · cases quit
      · cases failed
  | exit flow t =>
      cases settles
      exact Timers.isActive_deactivate_self ..
  | crashed => cases settles
  | unfinished => cases settles

theorem turn_of_fireTimer (wf : s.workspace.WellFormed) (inOrder : s.timers.WellFormed)
    (fires : fireTimer id s = .ok outcome s') : Turn id outcome s s' := by
  cases isActive : s.timers.isActive id with
  | false =>
      rw [fireTimer_of_inactive isActive] at fires
      cases fires
      refine ⟨fun _ => ⟨rfl, rfl⟩, fun active => ?_, fun failed => ?_, fun timer found _ => ?_⟩
      · rw [isActive] at active
        cases active
      · rcases failed with quit | ⟨_, failed⟩
        · cases quit
        · cases failed
      · exact ⟨inOrder.id_lt found, isActive⟩
  | true =>
      obtain ⟨timer, found, active⟩ := Timers.isActive_eq_true_iff.mp isActive
      rw [fireTimer_of_active found active] at fires
      split at fires
      next =>
        have ended := (restores_callTimer timer).restores _ (kept_firing wf id).wellFormed
        have next := succeeds_of_settled ended fires
        have old : id < s'.timers.nextId := Nat.lt_of_lt_of_le (inOrder.id_lt found) next.nextId_le
        refine ⟨fun inactive => ?_, fun _ => ⟨timer, found, fires⟩, fun failed => ?_,
          fun once there again => ?_⟩
        · rw [isActive] at inactive
          cases inactive
        · exact ⟨old, isActive_of_settled fires failed⟩
        · rw [found, Option.some.injEq] at there
          subst there
          exact next.stopped ⟨inOrder.id_lt found, Timers.isActive_markFired_of_once found again _⟩
      next => cases fires

/-! ## A batch -/

/-- A turn is not left before its end: what goes wrong in it is its outcome. -/
theorem fireTimer_ne_exit (id : Nat) (s : Session) (flow : Flow) (t : Session) :
    fireTimer id s ≠ .exit flow t := by
  cases isActive : s.timers.isActive id with
  | false =>
      rw [fireTimer_of_inactive isActive]
      exact nofun
  | true =>
      obtain ⟨timer, found, active⟩ := Timers.isActive_eq_true_iff.mp isActive
      rw [fireTimer_of_active found active]
      split
      · unfold settled
        split <;> exact nofun
      · exact nofun

/-- A batch goes on whatever becomes of the timers in it. -/
theorem fireTimers_ne_exit (batch : List Nat) (s : Session) (flow : Flow) (t : Session) :
    fireTimers batch s ≠ .exit flow t := by
  induction batch generalizing s with
  | nil => exact nofun
  | cons id rest ih =>
      intro left
      obtain ended | ⟨outcome, s₁, -, left⟩ := exit_of_bind left
      · exact fireTimer_ne_exit id s flow t ended
      · obtain ended | ⟨outcomes, s₂, -, returned⟩ := exit_of_bind left
        · exact ih s₁ ended
        · cases returned

/-- A batch is fired turn after turn. -/
theorem fireTimers_split {before after : List Nat} {outcomes : List (Nat × TimerOutcome)}
    (fires : fireTimers (before ++ id :: after) s = .ok outcomes s') :
    ∃ done s₁ outcome s₂ rest, fireTimers before s = .ok done s₁ ∧
      fireTimer id s₁ = .ok outcome s₂ ∧ fireTimers after s₂ = .ok rest s' ∧
      outcomes = done ++ (id, outcome) :: rest := by
  induction before generalizing s outcomes with
  | nil =>
      obtain ⟨outcome, s₂, turn, later⟩ := ok_of_bind fires
      obtain ⟨rest, s₃, others, done⟩ := ok_of_bind later
      cases done
      exact ⟨[], s, outcome, s₂, rest, rfl, turn, others, rfl⟩
  | cons first before ih =>
      obtain ⟨outcome, s₀, turn, later⟩ := ok_of_bind fires
      obtain ⟨others, s₃, next, done⟩ := ok_of_bind later
      cases done
      obtain ⟨done, s₁, outcome', s₂, rest, earlier, turn', after, rfl⟩ := ih next
      refine ⟨(first, outcome) :: done, s₁, outcome', s₂, rest, ?_, turn', after, rfl⟩
      show (fireTimer first >>= fun outcome => _) s = _
      rw [bind_of_ok _ turn, bind_of_ok _ earlier]
      rfl

/-- What a driver may count on, whatever the timers of a session have been through.  The list of
those that are due is exactly right at every instant.  A batch is fired turn after turn; at each
turn only a function whose timer is active is called, and a timer that failed or that fires once is
stopped after its turn.  Neither a batch, nor any evaluation, nor any change of the table starts
a timer again or puts another one under its number, and no number is given out twice. -/
theorem timers_driven {s : Session} (wf : s.workspace.WellFormed) {changes : List Timers.Change}
    (history : s.timers = Timers.run {} changes) :
    (∀ now, s.timers.Lists now (s.timers.due now)) ∧
    (∀ before id after outcomes s',
      fireTimers (before ++ id :: after) s = .ok outcomes s' →
        ∃ done s₁ outcome s₂ rest, fireTimers before s = .ok done s₁ ∧
          fireTimer id s₁ = .ok outcome s₂ ∧ fireTimers after s₂ = .ok rest s' ∧
          outcomes = done ++ (id, outcome) :: rest ∧
          Turn id outcome s₁ s₂ ∧ s₂.timers.Succeeds s'.timers) ∧
    (∀ batch, (∀ flow t, fireTimers batch s ≠ .exit flow t) ∧
      (fireTimers batch s).Leaves fun t => s.timers.Succeeds t.timers) ∧
    (∀ level request, (atLevel level request s).Leaves fun t => s.timers.Succeeds t.timers) ∧
    ∀ more, s.timers.Succeeds (s.timers.run more) ∧
      (Timers.numbers {} (changes ++ more)).Pairwise (· < ·) := by
  have inOrder : s.timers.WellFormed := history ▸ Timers.wellFormed_empty.run changes
  refine ⟨inOrder.lists_due, fun before id after outcomes s' fires => ?_,
    fun batch => ⟨fireTimers_ne_exit batch s, ?_⟩, fun level request => ?_,
    fun more => ⟨Timers.succeeds_run _ more, Timers.pairwise_numbers _ _⟩⟩
  · obtain ⟨done, s₁, outcome, s₂, rest, earlier, turn, later, all⟩ := fireTimers_split fires
    have kept := Restores.kept_of_ok wf earlier
    have kept' := Restores.kept_of_ok kept.wellFormed turn
    have kept'' := Restores.kept_of_ok kept'.wellFormed later
    exact ⟨done, s₁, outcome, s₂, rest, earlier, turn, later, all,
      turn_of_fireTimer kept.wellFormed (kept.passes.wellFormed inOrder) turn,
      kept''.passes.succeeds⟩
  · exact ((restores_fireTimers batch).restores s wf).mono fun _ kept => kept.passes.succeeds
  · exact ((restores_atLevel level request).restores s wf).mono fun _ kept => kept.passes.succeeds

/-- A session with a repeating timer whose function is the empty list. -/
def uncallable : Session := { timers := Timers.run {} [.add 0 0 (some 5) .nil [.t] false] }

theorem fireTimer_uncallable : ∃ s', fireTimer 1 uncallable =
    .ok (.failed (.signal "void-function" (.cons 0))) s' := by
  have level : Interp.topLevel = 4611686018427387903 + 1 := by decide
  have called : callTimer (.registered 1 0 0 (some 5) .nil [.t] false) (uncallable.firing 1) =
      .exit (.signal "void-function" (.cons 0))
        { uncallable.firing 1 with store := { pairs := #[⟨.nil, .nil⟩] } } := by
    unfold callTimer funcall
    simp only [Interp.top, Interp.ofLevel]
    rw [level]
    rfl
  refine ⟨Session.stopping { uncallable.firing 1 with store := { pairs := #[⟨.nil, .nil⟩] } } 1, ?_⟩
  have active : fireTimer 1 uncallable = _ := fireTimer_of_active rfl rfl
  rw [active, if_pos (by decide)]
  refine (congrArg (settled 1) called).trans (congrArg (Outcome.ok · _) (if_neg ?_))
  decide

/-- It is due, fails at its turn, and is stopped. -/
theorem timers_driven_uncallable :
    1 ∈ uncallable.timers.due 0 ∧ ∃ flow s',
      fireTimers [1] uncallable = .ok [(1, .failed flow)] s' ∧ s'.timers.isActive 1 = false := by
  have driven := timers_driven (s := uncallable) Workspace.wellFormed_initial rfl
  have isDue := ((driven.1 0).mem_iff 1).mpr ⟨_, rfl, rfl, Nat.le_refl 0⟩
  obtain ⟨t, turn⟩ := fireTimer_uncallable
  have fires : fireTimers [1] uncallable =
      .ok [(1, .failed (.signal "void-function" (.cons 0)))] t := by
    unfold fireTimers
    rw [bind_of_ok _ turn]
    rfl
  obtain ⟨_, s₁, outcome, _, _, earlier, turn', later, all, described, -⟩ :=
    driven.2.1 [] 1 [] _ _ fires
  cases earlier
  cases later
  cases turn.symm.trans turn'
  exact ⟨isDue, _, t, fires, (described.failed (.inr ⟨_, rfl⟩)).2⟩

end Eval

end EditorLisp
