import EditorLisp.Proofs.Evaluation.Call
import EditorLisp.Proofs.Forms.Lockstep
import EditorLisp.Proofs.Timer.Firing

/-!
# Periods of zero

A period of zero is dropped when a timer is registered, so that it fires once.  Of the
primitives that programs have for timers, two give a timer another period, and these take zero
as it is.  As long as none of them is given zero, no timer has a period of zero, and what was
fired at an instant is not due at that instant any more.  `retimed_zero` is the history in which
one is: it makes a timer that is always due.
-/

namespace EditorLisp

/-- A change that gives no timer a period of zero. -/
abbrev Timers.Change.IsPaced (change : Timers.Change) : Prop := ¬change.SetsZero

/-! ## Steps -/

/-- A step that gives no timer a period of zero, however it ends. -/
class Eval.Paces {α : Type} (m : Eval α) : Prop where
  paces : ∀ s, (m s).Leaves (s.Passes Timers.Change.IsPaced)

namespace Eval

variable {α β : Type}

namespace Paces

instance pure (a : α) : Paces (Pure.pure a : Eval α) := ⟨.refl⟩

instance leave (flow : Flow) : Paces (Eval.leave flow : Eval α) := ⟨.refl⟩

instance crash : Paces (Eval.crash : Eval α) := ⟨fun _ => trivial⟩

instance bind {m : Eval α} {f : α → Eval β} [first : Paces m] [next : ∀ a, Paces (f a)] :
    Paces (m >>= f) where
  paces s := leaves_bind (first.paces s) fun a s' passes =>
    ((next a).paces s').mono fun _ => passes.trans

/-- One step after the other, given as such. -/
theorem after {m : Eval α} {f : α → Eval β} [Paces m] (next : ∀ a, Paces (f a)) :
    Paces (m >>= f) :=
  bind

instance ite {c : Prop} [Decidable c] {m n : Eval α} [yes : Paces m] [no : Paces n] :
    Paces (if c then m else n) := by
  split <;> infer_instance

instance granted (result : Option α) : Paces (Eval.granted result) := by
  unfold Eval.granted
  split <;> infer_instance

instance error (message : String) : Paces (Eval.error message : Eval α) :=
  ⟨fun _ => .of_eq rfl (Nat.le_refl _)⟩

instance wrongType (predicate : String) (got : Value) :
    Paces (Eval.wrongType predicate got : Eval α) :=
  leave _

instance exactly (name : String) (args : List Value) (n : Nat) :
    Paces (Eval.exactly name args n) := by
  unfold Eval.exactly Eval.wrongArity
  infer_instance

instance atLeast (name : String) (args : List Value) (minimum : Nat) :
    Paces (Eval.atLeast name args minimum) := by
  unfold Eval.atLeast Eval.wrongArity
  infer_instance

instance number (v : Value) : Paces (Eval.number v) := by
  unfold Eval.number
  split <;> infer_instance

end Paces

end Eval

namespace Primitives

open Eval Paces

variable {I : Interp} {args : List Value} {v : Value}

instance (n : Nat) : Paces (duration n) := by
  unfold duration
  infer_instance

instance : Paces (durationOf v) := by
  unfold durationOf
  split <;> infer_instance

instance (n : Nat) : Paces (checkReach n) := by
  unfold checkReach
  infer_instance

instance : Paces (delayOf v) := by
  unfold delayOf
  split
  · infer_instance
  · infer_instance
  · split <;> infer_instance
  · infer_instance

instance (v : Option Value) : Paces (periodOf v) := by
  unfold periodOf
  split <;> infer_instance

instance : Paces (requireTimer v) := by
  unfold requireTimer
  split <;> infer_instance

instance : Paces (gamePeriod v) := by
  unfold gamePeriod
  infer_instance

instance : Paces readClock := ⟨fun _ => .of_eq rfl (Nat.le_succ _)⟩

/-- Registering a timer drops a period of zero. -/
instance (name : String) (idle : Bool) : Paces (schedule name idle I args) := by
  unfold schedule
  refine after fun _ => after fun delay => ?_
  dsimp only
  split <;> refine after fun period => after fun _ => after fun now => ⟨fun s => ?_⟩ <;>
    exact (Session.Passes.refl s).make
      (.add now delay period (arg args 2) (args.drop 3) idle) not_false trivial

instance : Paces (cancelTimer I args) := by
  unfold cancelTimer unary
  refine after fun _ => after fun id => @after _ _ _ _ ⟨fun s => ?_⟩ fun _ => inferInstance
  exact (Session.Passes.refl s).make (.cancel id) not_false trivial

instance : Paces dropGameTimer where
  paces s := by
    unfold dropGameTimer Eval.modify
    dsimp only
    split
    next id _ =>
      exact ((Session.Passes.refl s).make (.cancel id) not_false trivial).trans
        (.of_eq rfl (Nat.le_refl _))
    next => exact .refl s

instance : Paces (gridStartTimer I args) := by
  unfold gridStartTimer binary
  refine after fun _ => after fun period => after fun _ => after fun _ => after fun now =>
    @after _ _ _ _ ⟨fun s => ?_⟩ fun _ => inferInstance
  exact ((Session.Passes.refl s).make
    (.add now period (some period) (arg args 1) [] false) not_false trivial).trans
      (.of_eq rfl (Nat.le_refl _))

instance : Paces (gridKillTimer I args) := by
  unfold gridKillTimer
  infer_instance

/-- A period other than zero may be set. -/
theorem leaves_setTimerPeriod (s : Session) (id : Nat) {period : Nat} (nonzero : period ≠ 0) :
    (setTimerPeriod id period s).Leaves (s.Passes Timers.Change.IsPaced) := by
  have passed : s.Passes Timers.Change.IsPaced { s with clock := s.clock + 1 } :=
    .of_eq rfl (Nat.le_succ _)
  have last : s.Passes Timers.Change.IsPaced
      { s with clock := s.clock + 1, timers := s.timers.setPeriod id period (s.clock + 1) } :=
    passed.make (.setPeriod id period (s.clock + 1)) nonzero (Nat.le_succ _)
  unfold setTimerPeriod
  rw [bind_of_ok _ (readClock_eq s), bind_of_ok _ (rfl : session _ = .ok _ _)]
  unfold checkReach
  split
  · split
    · exact last
    · trivial
  · exact last

/-- The period that `timer-set-time` sets. -/
def newPeriod (args : List Value) : Eval Nat := do
  let period ← periodOf (given? args 2)
  let delay ← delayOf (arg args 1)
  return period.getD delay

theorem timerSetTime_eq (I : Interp) (args : List Value) : timerSetTime I args = (do
    between "timer-set-time" args 2 3
    let id ← requireTimer (arg args 0)
    let period ← newPeriod args
    setTimerPeriod id period
    return arg args 0) := by
  unfold timerSetTime newPeriod
  simp only [bind_assoc, pure_bind]

/-- What is left at a check that fails is the session as it was. -/
theorem leaves_checked {β : Type} {c : Prop} [Decidable c] {flow : Flow} {m : Eval β} {s : Session}
    {P : Session → Prop} (here : P s) (next : (m s).Leaves P) :
    (((if c then pure () else leave flow : Eval Unit) >>= fun _ => m) s).Leaves P := by
  split
  · exact next
  · exact here

/-- If the new period is not zero, `timer-set-time` sets none of zero. -/
theorem leaves_timerSetTime {s : Session} (nonzero : ∀ t, newPeriod args s ≠ .ok 0 t) :
    (timerSetTime I args s).Leaves (s.Passes Timers.Change.IsPaced) := by
  have computes : Paces (newPeriod args) := by
    unfold newPeriod
    infer_instance
  rw [timerSetTime_eq]
  refine leaves_checked (.refl s) ?_
  cases arg args 0 with
  | timer id =>
      rw [bind_of_ok _ (rfl : requireTimer (.timer id) s = .ok id s)]
      refine leaves_bind_of_ok (computes.paces s) fun period s' isNew passes => ?_
      have isNonzero : period ≠ 0 := fun zero => nonzero s' (by rw [isNew, zero])
      have set := leaves_setTimerPeriod s' id isNonzero
      exact leaves_bind (set.mono fun _ => passes.trans) fun _ _ done => done
  | _ => exact .refl s

/-- If the new period is not zero, `gamegrid-set-timer` sets none of zero. -/
theorem leaves_gridSetTimer {s : Session} (nonzero : ∀ t, gamePeriod (arg args 0) s ≠ .ok 0 t) :
    (gridSetTimer I args s).Leaves (s.Passes Timers.Change.IsPaced) := by
  have computes : Paces (gamePeriod (arg args 0)) := inferInstance
  refine leaves_checked (.refl s) ?_
  refine leaves_bind_of_ok (computes.paces s) fun period s' isNew passes => ?_
  rw [bind_of_ok _ (rfl : session s' = .ok s' s')]
  cases s'.grid.timer with
  | some id =>
      have isNonzero : period ≠ 0 := fun zero => nonzero s' (by rw [isNew, zero])
      have set := leaves_setTimerPeriod s' id isNonzero
      exact leaves_bind (set.mono fun _ => passes.trans) fun _ _ done => done
  | none => exact passes

end Primitives

/-! ## Histories of a session -/

namespace Timers

open Eval Primitives

/-- What may happen to the timers of a session: a program calls a primitive, with any arguments,
or a driver fires a timer. -/
inductive Event where
  /-- A call of `run-at-time` or `run-with-timer`, or of `run-with-idle-timer`. -/
  | schedule (name : String) (idle : Bool) (args : List Value)
  | timerSetTime (args : List Value)
  | cancelTimer (args : List Value)
  | gridStartTimer (args : List Value)
  | gridSetTimer (args : List Value)
  | gridKillTimer (args : List Value)
  | fire (id : Nat)

namespace Event

/-- What happens; a call that fails has happened as well. -/
def run : Event → Eval Unit
  | .schedule name idle args => discard <| attempt (Primitives.schedule name idle Interp.top args)
  | .timerSetTime args => discard <| attempt (Primitives.timerSetTime Interp.top args)
  | .cancelTimer args => discard <| attempt (Primitives.cancelTimer Interp.top args)
  | .gridStartTimer args => discard <| attempt (Primitives.gridStartTimer Interp.top args)
  | .gridSetTimer args => discard <| attempt (Primitives.gridSetTimer Interp.top args)
  | .gridKillTimer args => discard <| attempt (Primitives.gridKillTimer Interp.top args)
  | .fire id => discard <| fireTimer id

/-- The event sets no period of zero: the two primitives that change periods are not given one
that comes to zero nanoseconds, and the function of a timer gives none to any timer. -/
def IsPaced (s : Session) : Event → Prop
  | .timerSetTime args => ∀ t, newPeriod args s ≠ .ok 0 t
  | .gridSetTimer args => ∀ t, gamePeriod (arg args 0) s ≠ .ok 0 t
  | .fire id => ∀ timer, s.timers.get? id = some timer →
      (callTimer timer (s.firing id)).Leaves ((s.firing id).Passes Change.IsPaced)
  | _ => True

end Event

/-- A session comes about from another by events each of which is of a kind. -/
inductive Happens (P : Session → Event → Prop) (s : Session) : Session → Prop where
  | start : Happens P s s
  | next {s' s'' : Session} (event : Event) (before : Happens P s s') (kind : P s' event)
      (ends : event.run s' = .ok () s'') : Happens P s s''

/-! ## One event -/

section Step

variable {s s' : Session} {id : Nat}

theorem leaves_of_discard {α : Type} {m : Eval α} {P : Session → Prop} (left : (m s).Leaves P)
    (ends : (discard m : Eval Unit) s = .ok () s') : P s' := by
  obtain ⟨_, t, returned, done⟩ := ok_of_bind (m := m) ends
  cases done
  rwa [returned] at left

theorem leaves_of_attempt {α : Type} {m : Eval α} {P : Session → Prop} (left : (m s).Leaves P)
    (ends : (discard (attempt m) : Eval Unit) s = .ok () s') : P s' := by
  refine leaves_of_discard (m := attempt m) ?_ ends
  unfold attempt
  cases ended : m s <;> rwa [ended] at left

/-- From noting that a timer has fired on, its turn sets no period of zero. -/
theorem leaves_fireTimer {P : Session → Prop} (here : s.timers.isActive id = false → P s)
    (turn : ∀ timer, s.timers.get? id = some timer →
      (callTimer timer (s.firing id)).Leaves fun t => P t ∧ P (t.stopping id)) :
    (fireTimer id s).Leaves P := by
  cases isActive : s.timers.isActive id with
  | false =>
      rw [fireTimer_of_inactive isActive]
      exact here isActive
  | true =>
      obtain ⟨timer, found, active⟩ := isActive_eq_true_iff.mp isActive
      rw [fireTimer_of_active found active]
      have ended := turn timer found
      split
      · cases called : callTimer timer (s.firing id) with
        | ok =>
            rw [called] at ended
            exact ended.1
        | exit =>
            rw [called] at ended
            exact ended.2
        | crashed => trivial
        | unfinished => trivial
      · trivial

theorem passes_stopping (passes : s.Passes Change.IsPaced s') (id : Nat) :
    s.Passes Change.IsPaced (s'.stopping id) :=
  passes.make (.deactivate id) not_false trivial

theorem passes_of_fire (paced : Event.IsPaced s (.fire id)) :
    (fireTimer id s).Leaves (s.Passes Change.IsPaced) := by
  have noted : s.Passes Change.IsPaced (s.firing id) :=
    Session.Passes.make (.of_eq rfl (Nat.le_succ _) : s.Passes _ { s with clock := s.clock + 1 })
      (.markFired id (s.clock + 1)) not_false (Nat.le_succ _)
  refine leaves_fireTimer (fun _ => .refl s) fun timer found => ?_
  refine (paced timer found).mono fun t passes => ?_
  exact ⟨noted.trans passes, passes_stopping (noted.trans passes) id⟩

theorem passes_of_run {event : Event} (paced : event.IsPaced s) (ends : event.run s = .ok () s') :
    s.Passes Change.IsPaced s' := by
  cases event with
  | schedule name idle args => exact leaves_of_attempt (Paces.paces s) ends
  | timerSetTime args => exact leaves_of_attempt (leaves_timerSetTime paced) ends
  | cancelTimer args => exact leaves_of_attempt (Paces.paces s) ends
  | gridStartTimer args => exact leaves_of_attempt (Paces.paces s) ends
  | gridSetTimer args => exact leaves_of_attempt (leaves_gridSetTimer paced) ends
  | gridKillTimer args => exact leaves_of_attempt (Paces.paces s) ends
  | fire id => exact leaves_of_discard (passes_of_fire paced) ends

end Step

/-! ## Histories -/

section Histories

variable {s s' : Session} {id : Nat}

theorem passes_of_happens (happens : Happens Event.IsPaced s s') : s.Passes Change.IsPaced s' := by
  induction happens with
  | start => exact .refl s
  | next _ _ paced ends ih => exact ih.trans (passes_of_run paced ends)

theorem Paced.of_passes (paced : s.timers.Paced) (passes : s.Passes Change.IsPaced s') :
    s'.timers.Paced := by
  obtain ⟨changes, so, each⟩ := passes.changed
  rw [so]
  exact paced.run fun change member => (each change member).1

/-- What rests at the time of a session rests, at that time, in all that come after it. -/
theorem Rests.of_passes (rests : s.timers.Rests id s.clock) (paced : s.timers.Paced)
    (passes : s.Passes Change.IsPaced s') : s'.timers.Rests id s.clock := by
  obtain ⟨changes, so, each⟩ := passes.changed
  rw [so]
  exact rests.run paced each

/-- In a table without periods of zero, nothing is due at the instant at which it was fired. -/
theorem not_mem_due_markFired (inOrder : s.timers.WellFormed) (paced : s.timers.Paced)
    (id now : Nat) : id ∉ (s.timers.markFired id now).due now := by
  intro isDue
  have inOrder' := inOrder.make (.markFired id now)
  obtain ⟨timer, found, -⟩ := inOrder'.mem_due_iff.mp isDue
  obtain ⟨old, there, -⟩ := found_modify (f := (·.fired now)) found
  · exact inOrder'.not_mem_due_of_rests (inOrder.rests_markFired paced there now) isDue

/-- However its function went on, it is not due at that instant. -/
theorem not_mem_due_of_fire (inOrder : s.timers.WellFormed) (paced : s.timers.Paced)
    (firing : Event.IsPaced s (.fire id)) :
    (fireTimer id s).Leaves fun t => id ∉ t.timers.due (s.clock + 1) := by
  refine leaves_fireTimer (fun inactive isDue => ?_) fun timer found => ?_
  · obtain ⟨timer, found, active, -⟩ := inOrder.mem_due_iff.mp isDue
    rw [isActive_eq_false_iff.mp inactive timer found] at active
    cases active
  · have inOrder' := inOrder.make (.markFired id (s.clock + 1))
    have paced' : (s.firing id).timers.Paced := paced.make (.markFired id _) not_false
    have rests : (s.firing id).timers.Rests id (s.firing id).clock :=
      inOrder.rests_markFired paced found _
    have quiet {t : Session} (passes : (s.firing id).Passes Change.IsPaced t) :
        id ∉ t.timers.due (s.clock + 1) :=
      (passes.wellFormed inOrder').not_mem_due_of_rests (rests.of_passes paced' passes)
    exact (firing timer found).mono fun t passes =>
      ⟨quiet passes, quiet (passes_stopping passes id)⟩

/-- Timers that were registered, re-timed, cancelled and fired in whatever order and with whatever
arguments, but without a period of zero being set, have no period of zero.  What is fired at an
instant is not due at that instant any more, whatever its function has done in the
meantime. -/
theorem paced_of_happens (none : s.timers = {}) (happens : Happens Event.IsPaced s s') :
    (∀ id timer, s'.timers.get? id = some timer → timer.period ≠ some 0) ∧
    (∀ id now, id ∉ (s'.timers.markFired id now).due now) ∧
    ∀ id, Event.IsPaced s' (.fire id) →
      (fireTimer id s').Leaves fun t => id ∉ t.timers.due (s'.clock + 1) := by
  have passes := passes_of_happens happens
  have paced : s'.timers.Paced := Paced.of_passes (none ▸ paced_empty) passes
  have inOrder : s'.timers.WellFormed := passes.wellFormed (none ▸ wellFormed_empty)
  exact ⟨paced, not_mem_due_markFired inOrder paced, fun id => not_mem_due_of_fire inOrder paced⟩

end Histories

/-! ## With and without a period of zero -/

/-- Calling the primitive that makes a list. -/
theorem funcall_list (args : List Value) (s : Session) :
    Eval.funcall (.subr "list") args s = list args s := by
  have level : Interp.topLevel = 4611686018427387903 + 1 := by decide
  rw [Eval.funcall, Interp.top, level]
  exact congrFun (Interp.apply_subr Forms.primitive?_list _ args) s

/-- A session in which a timer that makes a list is due at once and not again. -/
def onceListed : Session :=
  { clock := 1, timers := ({} : Timers).make (.add 1 0 none (.subr "list") [.t] true) }

/-- An idle timer without a delay would repeat with a period of zero, and fires once. -/
theorem happens_onceListed : Happens Event.IsPaced {} onceListed :=
  .next (.schedule "run-with-idle-timer" true [.nil, .t, .subr "list", .t]) .start trivial rfl

theorem paced_of_happens_onceListed :
    (∀ id timer, onceListed.timers.get? id = some timer → timer.period ≠ some 0) ∧
      (fireTimer 1 onceListed).Leaves fun t => 1 ∉ t.timers.due 2 := by
  have held := paced_of_happens rfl happens_onceListed
  refine ⟨held.1, held.2.2 1 fun timer found => ?_⟩
  cases found
  have called : callTimer (.registered 1 1 0 none (.subr "list") [.t] true) (onceListed.firing 1) =
      list [.t] (onceListed.firing 1) := funcall_list ..
  have listed : (list [.t] (onceListed.firing 1)).Leaves
      ((onceListed.firing 1).Passes Change.IsPaced) := .of_eq rfl (Nat.le_refl _)
  rw [← called] at listed
  exact listed

/-- A session in which a timer that makes a list was registered without a period and given
one of zero by `timer-set-time`. -/
def alwaysListed : Session :=
  { clock := 2
    timers := (({} : Timers).make (.add 1 0 none (.subr "list") [.t] false)).make
      (.setPeriod 1 0 2) }

/-- Its timer. -/
def alwaysListedTimer : Timer :=
  { Timer.registered 1 1 0 none (.subr "list") [.t] false with period := some 0, due := 2 }

theorem happens_alwaysListed : Happens (fun _ _ => True) {} alwaysListed := by
  have registered : Event.run (.schedule "run-at-time" false [.nil, .nil, .subr "list", .t]) {} =
      .ok () { clock := 1
               timers := ({} : Timers).make (.add 1 0 none (.subr "list") [.t] false) } :=
    rfl
  exact .next (.timerSetTime [.timer 1, .nil]) (.next _ .start trivial registered) trivial rfl

/-- The period of zero is in the table, and when the timer has fired it is due at the same
instant again. -/
theorem retimed_zero :
    Happens (fun _ _ => True) {} alwaysListed ∧
      (∃ timer, alwaysListed.timers.get? 1 = some timer ∧ timer.period = some 0) ∧
      ∃ value t, fireTimer 1 alwaysListed = .ok (.fired value) t ∧
        1 ∈ t.timers.due (alwaysListed.clock + 1) := by
  have found : alwaysListed.timers.get? 1 = some alwaysListedTimer := rfl
  have called : callTimer alwaysListedTimer (alwaysListed.firing 1) =
      list [.t] (alwaysListed.firing 1) := funcall_list ..
  have fired : fireTimer 1 alwaysListed =
      settled 1 (callTimer alwaysListedTimer (alwaysListed.firing 1)) :=
    (fireTimer_of_active found rfl).trans (if_pos (by decide))
  refine ⟨happens_alwaysListed, ⟨_, found, rfl⟩, _, _, fired.trans (congrArg _ called), ?_⟩
  have inOrder : (alwaysListed.firing 1).timers.WellFormed :=
    wellFormed_empty.run [.add 1 0 none (.subr "list") [.t] false, .setPeriod 1 0 2, .markFired 1 3]
  exact inOrder.mem_due_iff.mpr ⟨_, rfl, rfl, Nat.le_refl 3⟩

end Timers

end EditorLisp
