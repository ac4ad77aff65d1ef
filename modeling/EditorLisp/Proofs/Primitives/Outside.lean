import EditorLisp.Primitives.Grid
import EditorLisp.Primitives.Inert
import EditorLisp.Primitives.Load
import EditorLisp.Proofs.Primitives.Functions
import EditorLisp.Proofs.Primitives.Texts

/-!
# Time, files, the grid and loading

The primitives that reach outside the program.  Loading a feature is the one place where
the features being loaded change: the name that is pushed was not among them, so what is
left after dropping it again is what was there before.
-/

namespace EditorLisp

/-! ## Loading -/

namespace Session

instance RestoredBy.provide (name : String) : RestoredBy fun s => s.provide name :=
  ⟨fun s wf => by
    unfold Session.provide
    split
    · exact Kept.refl wf
    · exact .of_aside wf ⟨rfl, rfl, rfl, rfl, rfl, rfl, rfl⟩⟩

/-- Dropping a feature undoes that it was pushed, if it was not among them before. -/
theorem Kept.of_pushed {s s' : Session} {feature : String}
    (absent : ¬s.loading.contains feature = true)
    (inside : Kept { s with loading := s.loading ++ [feature] } s') :
    s.Kept { s' with loading := s'.loading.filter (· ≠ feature) } where
  depth_eq := inside.depth_eq
  loading_eq := by
    show s'.loading.filter (· ≠ feature) = s.loading
    have others : ∀ name ∈ s.loading, decide (name ≠ feature) = true := by
      intro name member
      refine decide_eq_true fun same => absent ?_
      rw [← same]
      exact List.contains_iff_mem.mpr member
    rw [inside.loading_eq, List.filter_append, List.filter_eq_self.mpr others]
    simp
  wellFormed := inside.wellFormed
  retains := inside.retains
  evolves := inside.evolves
  develops := inside.develops
  passes := ⟨inside.passes.clock_le, inside.passes.changed⟩

end Session

namespace Eval.Restores

variable (I : Interp) [I.Restores]

instance evalForms (forms : List Value) : Restores (Eval.evalForms I forms) := by
  induction forms with
  | nil => exact pure _
  | cons form rest ih =>
      unfold Eval.evalForms
      infer_instance

instance evalLoaded (path : String) (data : List Datum) :
    Restores (Eval.evalLoaded I path data) := by
  unfold Eval.evalLoaded
  infer_instance

instance fileMissing {α : Type} (operation file : String) :
    Restores (Primitives.fileMissing operation file : Eval α) := by
  unfold Primitives.fileMissing
  infer_instance

instance loadFile (path : String) : Restores (Eval.loadFile I path) := by
  unfold Eval.loadFile
  refine after fun s => ?_
  split
  · infer_instance
  · split <;> infer_instance

instance requireFeature (feature : String) (file : Option String) (quiet : Bool) :
    Restores (Eval.requireFeature I feature file quiet) where
  restores s wf := by
    have read : Eval.session s = .ok s s := rfl
    unfold Eval.requireFeature
    rw [Eval.bind_of_ok _ read]
    split
    next => exact restores s wf
    next unknown =>
      have absent : ¬s.loading.contains feature = true := by
        intro present
        rw [present, Bool.or_true] at unknown
        exact unknown rfl
      cases s.files.feature? (file.getD feature) s.loadPath with
      | none => exact restores s wf
      | some path =>
          have pushed : Eval.modify (fun s => { s with loading := s.loading ++ [feature] }) s =
              .ok () { s with loading := s.loading ++ [feature] } := rfl
          have loaded := (loadFile I path).restores { s with loading := s.loading ++ [feature] } wf
          have closed := Eval.leaves_ensuring loaded fun s' inside =>
            Session.Kept.of_pushed absent inside
          simp only
          rw [Eval.bind_of_ok _ pushed]
          refine Eval.leaves_bind closed fun value s' dropped => ?_
          exact (restores s' dropped.wellFormed).mono fun _ => dropped.trans

end Eval.Restores

namespace Primitives

open Eval Eval.Restores

variable (I : Interp) [I.Restores] (args : List Value) (v : Value)

instance : Restores (load I args) := by
  unfold load
  repeat refine after fun _ => ?_
  split <;> infer_instance

instance : Restores (require I args) := by
  unfold require
  infer_instance

instance : Restores (provide I args) := by
  unfold provide
  infer_instance

instance : Restores (featurep I args) := by
  unfold featurep
  infer_instance

instance : AllRestore I loading := by
  unfold loading
  repeat refine .cons ?_
  exact .nil

/-! ## Time -/

section Time

/-- The clock moves whenever it is read, and what is done next may count on it. -/
theorem readClock_eq (s : Session) :
    readClock s = .ok (s.clock + 1) { s with clock := s.clock + 1 } := rfl

theorem kept_ticked {s : Session} (wf : s.workspace.WellFormed) :
    s.Kept { s with clock := s.clock + 1 } :=
  Session.RestoredBy.kept (f := fun s => { s with clock := s.clock + 1 }) s wf

theorem restores_reading {α : Type} {f : Nat → Eval α}
    (next : ∀ s : Session, s.workspace.WellFormed → (f s.clock s).Leaves s.Kept) :
    Restores (readClock >>= f) where
  restores s wf := by
    rw [bind_of_ok _ (readClock_eq s)]
    exact (next { s with clock := s.clock + 1 } wf).mono fun _ => (kept_ticked wf).trans

instance : Restores readClock := by
  unfold readClock
  infer_instance

instance : Restores presentTime := by
  unfold presentTime
  infer_instance

instance : Restores (floatTime I args) := by
  unfold floatTime
  refine after fun _ => ?_
  split <;> infer_instance

instance : Restores (currentTime I args) := by
  unfold currentTime
  infer_instance

instance : Restores (secondsOf v) := by
  unfold secondsOf
  split <;> infer_instance

instance : Restores (currentTimeString I args) := by
  unfold currentTimeString
  infer_instance

instance : Restores (timeConvert I args) := by
  unfold timeConvert
  infer_instance

instance : Restores (timeEqualP I args) := by
  unfold timeEqualP
  infer_instance

instance : AllRestore I times := by
  unfold times
  repeat refine .cons ?_
  exact .nil

end Time

/-! ## Timers -/

section Timers

instance (n : Nat) : Restores (duration n) := by
  unfold duration
  infer_instance

instance : Restores (durationOf v) := by
  unfold durationOf
  split <;> infer_instance

instance (n : Nat) : Restores (checkReach n) := by
  unfold checkReach
  infer_instance

instance : Restores (delayOf v) := by
  unfold delayOf
  split
  · infer_instance
  · infer_instance
  · split <;> infer_instance
  · infer_instance

instance (v : Option Value) : Restores (periodOf v) := by
  unfold periodOf
  split <;> infer_instance

/-- A timer may be added to the timers that were read. -/
theorem kept_added {s : Session} (wf : s.workspace.WellFormed) (now delay : Nat)
    (period : Option Nat) (callback : Value) (args : List Value) (idle : Bool) :
    s.Kept { s with timers := (s.timers.add now delay period callback args idle).2 } :=
  (Session.Kept.refl wf).making (.add now delay period callback args idle) trivial

instance (name : String) (idle : Bool) : Restores (schedule name idle I args) := by
  unfold schedule
  refine after fun _ => after fun delay => ?_
  dsimp only
  split <;> refine after fun period => after fun _ => after fun now => ⟨fun s wf => ?_⟩ <;>
    exact kept_added wf ..

instance : Restores (requireTimer v) := by
  unfold requireTimer
  split <;> infer_instance

instance : Restores (cancelTimer I args) := by
  unfold cancelTimer
  infer_instance

instance : Restores (timerList I args) := by
  unfold timerList
  infer_instance

instance (id period : Nat) : Restores (setTimerPeriod id period) := by
  unfold setTimerPeriod
  refine restores_reading fun s wf => ?_
  rw [bind_session _ s]
  have last (s' : Session) (kept : s.Kept s') :
      s.Kept { s' with timers := s'.timers.setPeriod id period s.clock } :=
    kept.making (.setPeriod id period s.clock) (Nat.le_refl _)
  split
  · exact leaves_bind (restores s wf) fun _ => last
  · exact last s (.refl wf)

instance : Restores (timerSetTime I args) := by
  unfold timerSetTime
  infer_instance

instance : AllRestore I timers := by
  unfold timers
  repeat refine .cons ?_
  exact .nil

end Timers

/-! ## Files -/

section Files

instance : Restores (expandFileName I args) := by
  unfold expandFileName
  infer_instance

instance (name : String) (f : String → Eval Value) [∀ file, Restores (f file)] :
    Restores (onFileName name f I args) := by
  unfold onFileName
  infer_instance

instance : Restores (locateUserEmacsFile I args) := by
  unfold locateUserEmacsFile
  infer_instance

instance : Restores (expandedArg v) := by
  unfold expandedArg
  infer_instance

instance : Restores ( fileEntry? v) := by
  unfold fileEntry?
  infer_instance

instance : Restores (fileAttributes I args) := by
  unfold fileAttributes
  repeat refine after fun _ => ?_
  split
  · infer_instance
  · dsimp only
    infer_instance

instance : Restores (fileAttributeModificationTime I args) := by
  unfold fileAttributeModificationTime
  infer_instance

instance : Restores (executableFind I args) := by
  unfold executableFind
  repeat refine after fun _ => ?_
  split <;> infer_instance

instance : Restores (insertFileContents I args) := by
  unfold insertFileContents
  repeat refine after fun _ => ?_
  split <;> infer_instance

instance (start stop : Value) : Restores (regionText start stop) := by
  unfold regionText
  split <;> infer_instance

instance : Restores (writeRegion I args) := by
  unfold writeRegion
  repeat refine after fun _ => ?_
  split <;> infer_instance

instance : AllRestore I files := by
  unfold files
  refine .cons (.cons (@AllRestore.cons _ _ _ _ (fun args => ?_) ?_))
  · refine restores_unary fun v => after fun name => ?_
    dsimp only
    split <;> infer_instance
  · repeat refine .cons ?_
    exact .nil

end Files

/-! ## The grid -/

section Grid

instance : Restores (gamePeriod v) := by
  unfold gamePeriod
  infer_instance

instance (f : Grid → Grid) : Restores (modifyGrid f) := by
  unfold modifyGrid
  infer_instance

instance : Restores (gridInit I args) := by
  unfold gridInit
  infer_instance

instance : Restores (gridInitBuffer I args) := by
  unfold gridInitBuffer
  infer_instance

instance : Restores (gridSetCell I args) := by
  unfold gridSetCell
  infer_instance

instance : Restores (gridGetCell I args) := by
  unfold gridGetCell
  infer_instance

instance : Restores dropGameTimer where
  restores s wf := by
    unfold dropGameTimer Eval.modify
    dsimp only
    split
    next id _ =>
      exact ((Session.Kept.refl wf).making (.cancel id) trivial).trans
        (.of_aside wf ⟨rfl, rfl, rfl, rfl, rfl, rfl, rfl⟩)
    next => exact .refl wf

instance : Restores (gridStartTimer I args) := by
  unfold gridStartTimer
  refine restores_binary fun period callback => after fun period => after fun _ => after fun _ =>
    after fun now => @after _ _ _ _ ⟨fun s wf => ?_⟩ fun _ => inferInstance
  exact (kept_added wf ..).trans (.of_aside wf ⟨rfl, rfl, rfl, rfl, rfl, rfl, rfl⟩)

instance : Restores (gridSetTimer I args) := by
  unfold gridSetTimer
  refine restores_unary fun v => after fun period => after fun s => ?_
  split <;> infer_instance

instance : Restores (gridKillTimer I args) := by
  unfold gridKillTimer
  infer_instance

instance : Restores (gridAddScore I args) := by
  unfold gridAddScore
  dsimp only
  refine after fun _ => after fun file => after fun score => after fun now => after fun s => ?_
  split <;> infer_instance

instance : Restores (gridMatchSpecList I args) := by
  unfold gridMatchSpecList
  infer_instance

instance : AllRestore I grid := by
  unfold grid
  repeat refine .cons ?_
  exact .nil

end Grid

/-! ## Features without a model -/

section Inert

instance (name : String) (maximum : Nat) (answer : Eval Value) [Restores answer] :
    Restores (ignoring name maximum answer I args) := by
  unfold ignoring
  infer_instance

instance : Restores (nextSinglePropertyChange I args) := by
  unfold nextSinglePropertyChange
  infer_instance

instance : Restores (faceAttribute I args) := by
  unfold faceAttribute
  infer_instance

instance : Restores (makeFace I args) := by
  unfold makeFace
  infer_instance

instance : Restores (readString I args) := by
  unfold readString
  refine after fun _ => ?_
  split <;> infer_instance

instance : Restores monitorAttributes := by
  unfold monitorAttributes
  infer_instance

instance : Restores (makeBoolVector I args) := by
  unfold makeBoolVector
  infer_instance

instance : Restores (prefixNumericValue I args) := by
  unfold prefixNumericValue
  refine restores_unary fun v => ?_
  split
  · infer_instance
  · infer_instance
  · refine after fun head => ?_
    split <;> infer_instance
  · infer_instance

instance : Restores (verticalMotion I args) := by
  unfold verticalMotion
  dsimp only
  repeat refine after fun _ => ?_
  infer_instance

instance : Restores (getScratchBufferCreate I args) := by
  unfold getScratchBufferCreate
  infer_instance

instance : Restores (defineObsoleteFunctionAlias I args) := by
  unfold defineObsoleteFunctionAlias
  infer_instance

instance : AllRestore I inert := by
  unfold inert
  refine @AllRestore.append _ _ _ (@AllRestore.append _ _ _ ?_ inferInstance) inferInstance
  repeat refine .cons ?_
  exact .nil

end Inert

end Primitives

end EditorLisp
