import EditorLisp.Evaluation.Basic
import EditorLisp.Proofs.Condition
import EditorLisp.Proofs.Document.Order
import EditorLisp.Proofs.Store.Objects
import EditorLisp.Proofs.Timer.History

/-!
# What every evaluation step puts back

However an evaluation step ends, with a value or by another way out, the depth of
evaluation and the features being loaded are those of before, and a well-formed workspace
is well formed again.  The objects of the store stay, no number of a buffer, window or timer is
given out twice, the table of windows stays in order, and time passes.  `Eval.Restores` says so
of a step.

The property is a class, and so are those of the pure functions that steps are made of: a
buffer's edit, a session's new workspace, a change of the store or of a whole session.  A
step that is put together from others then has it without further ado; what is left to
prove are the branches of a step and its loops.
-/

namespace EditorLisp

/-! ## Changes of a buffer -/

/-- A function of a buffer that leaves its number and name alone and its point in the
text. -/
class Buffer.EditedBy (f : Buffer → Buffer) : Prop where
  edited : ∀ b : Buffer, b.Edited (f b)

namespace Buffer.EditedBy

variable {f : Buffer → Buffer}

/-- What is done after an edit is one more edit. -/
theorem of_edited [EditedBy f] {g : Buffer → Buffer} (next : ∀ b, (f b).Edited (g b)) : EditedBy g :=
  ⟨fun b => (EditedBy.edited b).trans (next b)⟩

instance id : EditedBy fun b => b := ⟨Edited.refl⟩

instance const_ite {c : Buffer → Prop} [∀ b, Decidable (c b)] {g : Buffer → Buffer} [EditedBy f]
    [EditedBy g] : EditedBy fun b => if c b then f b else g b :=
  ⟨fun b => by split <;> exact EditedBy.edited b⟩

instance erase : EditedBy Buffer.erase := ⟨edited_erase⟩

instance deleteBlankLines : EditedBy Buffer.deleteBlankLines := ⟨edited_deleteBlankLines⟩

/-- An answer may stand in front of the buffer as well as behind it. -/
instance swap {α : Type} {g : Buffer → Buffer × α} [edits : EditedBy fun b => (g b).1] :
    EditedBy fun b => (g b).swap.2 :=
  edits

variable [EditedBy f]

instance goto (pos : Buffer → Nat) : EditedBy fun b => (f b).goto (pos b) :=
  of_edited fun _ => edited_goto ..

instance insert (s : Buffer → String) : EditedBy fun b => (f b).insert (s b) :=
  of_edited fun _ => edited_insert ..

instance insertAt (pos : Buffer → Nat) (s : Buffer → String) :
    EditedBy fun b => (f b).insertAt (pos b) (s b) :=
  of_edited fun _ => edited_insertAt ..

instance deleteRegion (x y : Buffer → Nat) : EditedBy fun b => (f b).deleteRegion (x b) (y b) :=
  of_edited fun _ => edited_deleteRegion ..

instance replaceRegion (x y : Buffer → Nat) (s : Buffer → String) :
    EditedBy fun b => (f b).replaceRegion (x b) (y b) (s b) :=
  of_edited fun _ => edited_replaceRegion ..

instance deleteChar (n : Buffer → Int) : EditedBy fun b => (f b).deleteChar (n b) :=
  of_edited fun _ => edited_deleteChar ..

instance substChar (x y : Buffer → Nat) (source target : Buffer → Char) :
    EditedBy fun b => ((f b).substChar (x b) (y b) (source b) (target b)).1 :=
  of_edited fun _ => edited_substChar ..

instance untabify (x y : Buffer → Nat) : EditedBy fun b => (f b).untabify (x b) (y b) :=
  of_edited fun _ => edited_untabify ..

instance forwardLine (n : Buffer → Int) : EditedBy fun b => ((f b).forwardLine (n b)).1 :=
  of_edited fun _ => edited_forwardLine ..

instance forwardWord (n : Buffer → Nat) : EditedBy fun b => (f b).forwardWord (n b) :=
  of_edited fun _ => edited_forwardWord ..

instance backwardWord (n : Buffer → Nat) : EditedBy fun b => (f b).backwardWord (n b) :=
  of_edited fun _ => edited_backwardWord ..

instance skipForward (accept : Buffer → Char → Bool) (limit : Buffer → Nat) :
    EditedBy fun b => ((f b).skipForward (accept b) (limit b)).1 :=
  of_edited fun _ => edited_skipForward ..

instance skipBackward (accept : Buffer → Char → Bool) (limit : Buffer → Nat) :
    EditedBy fun b => ((f b).skipBackward (accept b) (limit b)).1 :=
  of_edited fun _ => edited_skipBackward ..

instance setLocal (name : Buffer → String) (value : Buffer → Value) :
    EditedBy fun b => (f b).setLocal (name b) (value b) :=
  of_edited fun _ => edited_setLocal ..

instance killLocal (name : Buffer → String) : EditedBy fun b => (f b).killLocal (name b) :=
  of_edited fun _ => edited_killLocal ..

instance addHook (hook : Buffer → String) (function : Buffer → Value) (append : Buffer → Bool) :
    EditedBy fun b => (f b).addHook (hook b) (function b) (append b) :=
  of_edited fun _ => edited_addHook ..

instance removeHook (hook : Buffer → String) (function : Buffer → Value) :
    EditedBy fun b => (f b).removeHook (hook b) (function b) :=
  of_edited fun _ => edited_removeHook ..

end Buffer.EditedBy

/-! ## Changes of the workspace -/

/-- A workspace made from a session, well formed if that of the session is, and one that it
may evolve into. -/
class Session.WellFormedBy (g : Session → Workspace) : Prop where
  wellFormed : ∀ s, s.workspace.WellFormed → (g s).WellFormed
  evolves : ∀ s : Session, s.workspace.WellFormed → s.workspace.Evolves (g s)

namespace Session.WellFormedBy

variable {g : Session → Workspace}

/-- What keeps a workspace well formed may be done after what makes one. -/
theorem of_wellFormed [WellFormedBy g] {h : Session → Workspace}
    (next : ∀ s, (g s).WellFormed → (h s).WellFormed)
    (evolved : ∀ s, (g s).WellFormed → (g s).Evolves (h s)) : WellFormedBy h where
  wellFormed s wf := next s (WellFormedBy.wellFormed s wf)
  evolves s wf := (WellFormedBy.evolves s wf).trans (evolved s (WellFormedBy.wellFormed s wf))

/-- What may be refused leaves the workspace then. -/
theorem of_getD [WellFormedBy g] {op : Session → Option Workspace}
    (next : ∀ s w, (g s).WellFormed → op s = some w → w.WellFormed)
    (evolved : ∀ s w, (g s).WellFormed → op s = some w → (g s).Evolves w) :
    WellFormedBy fun s => (op s).getD (g s) := by
  apply of_wellFormed (g := g)
  · intro s wf
    cases done : op s with
    | none => exact wf
    | some w => exact next s w wf done
  · intro s wf
    cases done : op s with
    | none => exact .refl _
    | some w => exact evolved s w wf done

instance workspace : WellFormedBy Session.workspace := ⟨fun _ wf => wf, fun _ _ => .refl _⟩

variable [WellFormedBy g]

instance getOrCreate (name : Session → String) :
    WellFormedBy fun s => ((g s).getOrCreate (name s)).2 :=
  of_wellFormed (fun _ => Workspace.wellFormed_getOrCreate) fun _ _ =>
    ⟨Workspace.rearranges_getOrCreate.toFollows,
      fun ordered => Workspace.ordered_getOrCreate ordered _⟩

instance generate (base : Session → String) : WellFormedBy fun s => ((g s).generate (base s)).2 :=
  of_wellFormed (fun _ wf => Workspace.wellFormed_generate wf _) fun _ _ =>
    ⟨(Workspace.rearranges_generate _ _).toFollows, fun ordered => ordered⟩

instance modifyBuffer (id : Session → Nat) (f : Session → Buffer → Buffer)
    [edits : ∀ s, Buffer.EditedBy (f s)] : WellFormedBy fun s => (g s).modifyBuffer (id s) (f s) :=
  of_wellFormed (fun s wf => Workspace.wellFormed_modifyBuffer wf fun b _ => (edits s).edited b)
    fun _ _ => Workspace.evolves_modifyBuffer

instance ensureSelected : WellFormedBy fun s => (g s).ensureSelected.2 :=
  of_wellFormed (fun _ wf => Workspace.wellFormed_ensureSelected wf.toConsistent wf.shown_live)
    fun _ wf => by
      obtain ⟨_, -, same⟩ := Workspace.ensureSelected_of_wellFormed wf
      rw [same]

instance current : WellFormedBy fun s => (g s).current.2 := by
  have same (s : Session) (wf : (g s).WellFormed) : (g s).current.2 = g s := by
    obtain ⟨_, _, _, -, -, -, same⟩ := Workspace.current_of_wellFormed wf
    rw [same]
  apply of_wellFormed (g := g)
  · intro s wf
    rwa [same s wf]
  · intro s wf
    rw [same s wf]

instance setCurrent (id : Session → Nat) : WellFormedBy fun s => (g s).setCurrent (id s) :=
  of_wellFormed (fun _ wf => Workspace.wellFormed_setCurrent wf _) fun _ wf =>
    ⟨(Workspace.rearranges_setCurrent wf _).toFollows,
      fun ordered => Workspace.ordered_setCurrent ordered _⟩

instance switchTo (name : Session → String) : WellFormedBy fun s => ((g s).switchTo (name s)).2 :=
  of_wellFormed (fun _ wf => Workspace.wellFormed_switchTo wf _) fun _ wf =>
    ⟨(Workspace.rearranges_switchTo wf _).toFollows,
      fun ordered => Workspace.ordered_switchTo ordered _⟩

instance kill (id : Session → Nat) :
    WellFormedBy fun s => ((g s).kill? (id s)).getD (g s) :=
  of_getD (fun _ _ wf killed => (Workspace.kill?_cases wf killed).1) fun _ _ =>
    Workspace.evolves_kill?

instance bury (id : Session → Nat) : WellFormedBy fun s => (g s).bury (id s) :=
  of_wellFormed (fun _ wf => Workspace.wellFormed_bury wf _) fun _ wf =>
    ⟨(Workspace.rearranges_bury wf _).toFollows, fun ordered => Workspace.ordered_bury ordered _⟩

instance selectWindow (win : Session → Nat) : WellFormedBy fun s => (g s).selectWindow (win s) :=
  of_wellFormed (fun _ wf => Workspace.wellFormed_selectWindow wf _) fun _ _ =>
    ⟨(Workspace.rearranges_selectWindow _ _).toFollows,
      fun ordered => Workspace.ordered_selectWindow ordered _⟩

instance setWindowBuffer (win buffer : Session → Nat) :
    WellFormedBy fun s => ((g s).setWindowBuffer? (win s) (buffer s)).getD (g s) :=
  of_getD (fun _ _ wf done => (Workspace.setWindowBuffer?_cases wf done).1) fun _ _ wf done =>
    ⟨(Workspace.setWindowBuffer?_cases wf done).2.toFollows,
      fun ordered => Workspace.ordered_setWindowBuffer? ordered done⟩

instance deleteOtherWindows (keep : Session → Nat) :
    WellFormedBy fun s => (g s).deleteOtherWindows (keep s) :=
  of_wellFormed (fun _ wf => (Workspace.deleteOtherWindows_cases wf _).1) fun _ wf =>
    ⟨(Workspace.deleteOtherWindows_cases wf _).2.toFollows,
      fun ordered => Workspace.ordered_deleteOtherWindows ordered _⟩

instance capture : WellFormedBy fun s => (g s).capture.2 := by
  apply of_wellFormed (g := g)
  · intro s wf
    rwa [Workspace.capture_of_wellFormed wf]
  · intro s wf
    rw [Workspace.capture_of_wellFormed wf]

instance restore (layout : Session → Layout) : WellFormedBy fun s => (g s).restore (layout s) :=
  of_wellFormed (fun _ wf => (Workspace.restore_cases wf _).1) fun _ wf =>
    ⟨(Workspace.restore_cases wf _).2.toFollows,
      fun ordered => Workspace.ordered_restore ordered _⟩

end Session.WellFormedBy

/-! ## Changes of a session -/

/-- What evaluation puts back: the depth, the features being loaded, and a workspace in
order. -/
structure Session.Restored (s s' : Session) : Prop where
  depth_eq : s'.depth = s.depth
  loading_eq : s'.loading = s.loading
  wellFormed : s'.workspace.WellFormed

namespace Session.Restored

variable {s s' s'' : Session}

theorem refl (wf : s.workspace.WellFormed) : s.Restored s := ⟨rfl, rfl, wf⟩

theorem trans (first : s.Restored s') (second : s'.Restored s'') : s.Restored s'' :=
  ⟨second.depth_eq.trans first.depth_eq, second.loading_eq.trans first.loading_eq,
    second.wellFormed⟩

end Session.Restored

/-- What evaluation keeps: what it puts back, every object of the store, what a workspace keeps
as it evolves, and what a table of timers keeps as time passes.  Its conditions are what
definitions have made of them. -/
structure Session.Kept (s s' : Session) : Prop extends s.Restored s' where
  retains : s.store.Retains s'.store
  evolves : s.workspace.Evolves s'.workspace
  develops : s.conditions.Develops s'.conditions
  passes : s.Passes (fun _ => True) s'

namespace Session.Kept

variable {s s' s'' : Session}

theorem refl (wf : s.workspace.WellFormed) : s.Kept s :=
  ⟨.refl wf, .refl _, .refl _, .refl _, .refl _⟩

theorem frames_le (kept : s.Kept s') : s.store.frames.size ≤ s'.store.frames.size :=
  kept.retains.frames_le

theorem trans (first : s.Kept s') (second : s'.Kept s'') : s.Kept s'' :=
  ⟨first.toRestored.trans second.toRestored, first.retains.trans second.retains,
    first.evolves.trans second.evolves, first.develops.trans second.develops,
    first.passes.trans second.passes⟩

/-- Whatever else is set may be set to anything. -/
theorem of_aside (wf : s.workspace.WellFormed)
    (aside : s'.depth = s.depth ∧ s'.loading = s.loading ∧ s'.workspace = s.workspace ∧
      s'.store = s.store ∧ s'.conditions = s.conditions ∧
      s'.timers = s.timers ∧ s'.clock = s.clock) : s.Kept s' := by
  obtain ⟨depth_eq, loading_eq, workspace_eq, store_eq, conditions_eq, timers_eq, clock_eq⟩ :=
    aside
  refine ⟨⟨depth_eq, loading_eq, workspace_eq ▸ wf⟩, ?_, ?_, ?_, .of_eq timers_eq ?_⟩
  · rw [store_eq]
    exact .refl _
  · rw [workspace_eq]
  · rw [conditions_eq]
  · rw [clock_eq]

/-- A new workspace is kept to if it is one that the old one may evolve into. -/
theorem of_workspace {w : Workspace} (wf : w.WellFormed) (evolves : s.workspace.Evolves w) :
    s.Kept { s with workspace := w } :=
  ⟨⟨rfl, rfl, wf⟩, .refl _, evolves, .refl _, .of_eq rfl (Nat.le_refl _)⟩

/-- A new store is kept to if it has all the objects. -/
theorem of_store (wf : s.workspace.WellFormed) {store : Store} (retains : s.store.Retains store) :
    s.Kept { s with store } :=
  ⟨⟨rfl, rfl, wf⟩, retains, .refl _, .refl _, .of_eq rfl (Nat.le_refl _)⟩

/-- The timers may be changed once more. -/
theorem making (kept : s.Kept s') (change : Timers.Change) (after : change.NotBefore s.clock) :
    s.Kept { s' with timers := s'.timers.make change } :=
  ⟨⟨kept.depth_eq, kept.loading_eq, kept.wellFormed⟩, kept.retains, kept.evolves,
    kept.develops, kept.passes.make change trivial after⟩

end Session.Kept

/-- A table of timers and a clock made from a session, as time passes. -/
class Session.TimedBy (timers : Session → Timers) (clock : Session → Nat) : Prop where
  passes : ∀ s : Session, s.Passes (fun _ => True) { s with timers := timers s, clock := clock s }

namespace Session.TimedBy

instance same : TimedBy Session.timers Session.clock := ⟨fun s => .refl s⟩

instance ticked (ticks : Session → Nat) : TimedBy Session.timers fun s => s.clock + ticks s :=
  ⟨fun _ => .of_eq rfl (Nat.le_add_right ..)⟩

instance cancel (id : Session → Nat) : TimedBy (fun s => s.timers.cancel (id s)) Session.clock :=
  ⟨fun s => (Passes.refl s).make (.cancel (id s)) trivial trivial⟩

end Session.TimedBy

/-- A change of a session that evaluation may make on its own. -/
class Session.RestoredBy (f : Session → Session) : Prop where
  kept : ∀ s : Session, s.workspace.WellFormed → s.Kept (f s)

namespace Session.RestoredBy

/-- Everything but the store, the conditions, the depth and the features being loaded may be
set, the workspace to one that is well formed, the timers and the clock as time passes. -/
instance fields {globals functions : Session → Table String Value}
    {specials autoLocal : Session → Table String Unit}
    {plists : Session → Table String (List (Value × Value))} {features : Session → List String}
    {workspace : Session → Workspace} [sound : WellFormedBy workspace]
    {matchData : Session → Option MatchData} {timers : Session → Timers}
    {clock draws : Session → Nat} [timed : TimedBy timers clock]
    {globalMap : Session → Value} {messages : Session → Array String}
    {output : Session → String} {config : Session → Config} {files : Session → Files}
    {environment : Session → Environment} {host : Session → Host} {grid : Session → Grid}
    {symbolCount tempCount : Session → Nat} :
    RestoredBy fun s =>
      { store := s.store, globals := globals s, functions := functions s
        specials := specials s, autoLocal := autoLocal s, plists := plists s
        features := features s, loading := s.loading, workspace := workspace s
        matchData := matchData s, conditions := s.conditions, timers := timers s
        clock := clock s, draws := draws s, globalMap := globalMap s, messages := messages s
        output := output s, config := config s, files := files s
        environment := environment s, host := host s, grid := grid s
        symbolCount := symbolCount s, tempCount := tempCount s, depth := s.depth } :=
  ⟨fun s wf => ⟨⟨rfl, rfl, sound.wellFormed s wf⟩, .refl _, sound.evolves s wf, .refl _,
    (timed.passes s).clock_le, (timed.passes s).changed⟩⟩

end Session.RestoredBy

/-! ## Evaluation steps -/

/-- What holds of the session that is left when a step has ended. -/
def Outcome.Leaves {α : Type} (P : Session → Prop) : Outcome α → Prop
  | .ok _ s => P s
  | .exit _ s => P s
  | .crashed _ => True
  | .unfinished => True

theorem Outcome.Leaves.mono {α : Type} {P Q : Session → Prop} {o : Outcome α} (h : o.Leaves P)
    (weaker : ∀ s, P s → Q s) : o.Leaves Q := by
  cases o with
  | ok a s => exact weaker s h
  | exit flow s => exact weaker s h
  | crashed s => trivial
  | unfinished => trivial

theorem Outcome.Leaves.and {α : Type} {P Q : Session → Prop} {o : Outcome α} (first : o.Leaves P)
    (second : o.Leaves Q) : o.Leaves fun s => P s ∧ Q s := by
  cases o with
  | ok a s => exact ⟨first, second⟩
  | exit flow s => exact ⟨first, second⟩
  | crashed s => trivial
  | unfinished => trivial

instance : LawfulMonad Eval :=
  LawfulMonad.mk' Eval
    (fun m => by
      funext s
      show Eval.bind m (fun a => Eval.pure a) s = m s
      unfold Eval.bind
      cases m s <;> rfl)
    (fun _ _ => rfl)
    (fun m f g => by
      funext s
      show Eval.bind (Eval.bind m f) g s = Eval.bind m (fun a => Eval.bind (f a) g) s
      unfold Eval.bind
      cases m s <;> rfl)

/-- A step that returns hands its value and its session on. -/
theorem Eval.bind_of_ok {α β : Type} {m : Eval α} {s s' : Session} {a : α} (f : α → Eval β)
    (returned : m s = .ok a s') : (m >>= f) s = f a s' := by
  show Eval.bind m f s = f a s'
  rw [Eval.bind, returned]

/-- A step that leaves keeps the steps after it from being made. -/
theorem Eval.bind_of_exit {α β : Type} {m : Eval α} {s s' : Session} {flow : Flow}
    (f : α → Eval β) (left : m s = .exit flow s') : (m >>= f) s = .exit flow s' := by
  show Eval.bind m f s = .exit flow s'
  rw [Eval.bind, left]

/-- What comes after a step that ends the run is not reached. -/
theorem Eval.bind_of_crashed {α β : Type} {m : Eval α} {s t : Session} (f : α → Eval β)
    (ended : m s = .crashed t) : (m >>= f) s = .crashed t := by
  show Eval.bind m f s = .crashed t
  rw [Eval.bind, ended]

theorem Eval.attempt_of_ok {α : Type} {m : Eval α} {s s' : Session} {a : α}
    (returned : m s = .ok a s') : attempt m s = .ok (.ok a) s' := by
  rw [attempt, returned]

theorem Eval.attempt_of_exit {α : Type} {m : Eval α} {s s' : Session} {flow : Flow}
    (left : m s = .exit flow s') : attempt m s = .ok (.error flow) s' := by
  rw [attempt, left]

theorem Eval.bind_store {β : Type} (f : Store → Eval β) (s : Session) :
    (store >>= f) s = f s.store s := rfl

theorem Eval.bind_session {β : Type} (f : Session → Eval β) (s : Session) :
    (session >>= f) s = f s s := rfl

/-- A change at the end is made to the session that a step returns with. -/
theorem Eval.ensuring_of_ok {α : Type} {m : Eval α} {s s' : Session} {a : α}
    (after : Session → Session) (returned : m s = .ok a s') :
    m.ensuring after s = .ok a (after s') := by
  rw [ensuring, returned]

/-- A change at the end is made to the session that a step leaves with. -/
theorem Eval.ensuring_of_exit {α : Type} {m : Eval α} {s s' : Session} {flow : Flow}
    (after : Session → Session) (left : m s = .exit flow s') :
    m.ensuring after s = .exit flow (after s') := by
  rw [ensuring, left]

theorem Eval.ensuring_of_eq {α : Type} {m m' : Eval α} {s s' : Session}
    (after : Session → Session) (same : m s = m' s') :
    m.ensuring after s = m'.ensuring after s' := by
  rw [ensuring, ensuring, same]

/-- Steps that come down to the same may be followed by the same. -/
theorem Eval.bind_of_eq {α β : Type} {m m' : Eval α} {s s' : Session} (f : α → Eval β)
    (same : m s = m' s') : (m >>= f) s = (m' >>= f) s' := by
  show Eval.bind m f s = Eval.bind m' f s'
  rw [Eval.bind, Eval.bind, same]

/-- Steps that return together return one after the other. -/
theorem Eval.ok_of_bind {α β : Type} {m : Eval α} {f : α → Eval β} {s t : Session} {b : β}
    (returned : (m >>= f) s = .ok b t) : ∃ a s', m s = .ok a s' ∧ f a s' = .ok b t := by
  change Eval.bind m f s = .ok b t at returned
  unfold Eval.bind at returned
  cases ended : m s with
  | ok a s' =>
      rw [ended] at returned
      exact ⟨a, s', rfl, returned⟩
  | exit flow s' => rw [ended] at returned; cases returned
  | crashed s' => rw [ended] at returned; cases returned
  | unfinished => rw [ended] at returned; cases returned

/-- Steps that are left together are left at the first or, once that has returned, at what
follows it. -/
theorem Eval.exit_of_bind {α β : Type} {m : Eval α} {f : α → Eval β} {s t : Session} {flow : Flow}
    (left : (m >>= f) s = .exit flow t) :
    m s = .exit flow t ∨ ∃ a s', m s = .ok a s' ∧ f a s' = .exit flow t := by
  change Eval.bind m f s = .exit flow t at left
  unfold Eval.bind at left
  cases ended : m s with
  | ok a s' =>
      rw [ended] at left
      exact .inr ⟨a, s', rfl, left⟩
  | exit flow' s' =>
      rw [ended] at left
      cases left
      exact .inl rfl
  | crashed s' => rw [ended] at left; cases left
  | unfinished => rw [ended] at left; cases left

/-- What a step leaves when it goes another way out is left by the steps together as well; what
follows it may count on the value and the session it returned. -/
theorem Eval.leaves_bind_of_ok {α β : Type} {m : Eval α} {f : α → Eval β} {s : Session}
    {P : Session → Prop} (first : (m s).Leaves P)
    (next : ∀ a s', m s = .ok a s' → P s' → (f a s').Leaves P) : ((m >>= f) s).Leaves P := by
  show (Eval.bind m f s).Leaves P
  unfold Eval.bind
  cases ended : m s with
  | ok a s' =>
      rw [ended] at first
      exact next a s' ended first
  | exit flow s' =>
      rw [ended] at first
      exact first
  | crashed s' => trivial
  | unfinished => trivial

theorem Eval.leaves_bind {α β : Type} {m : Eval α} {f : α → Eval β} {s : Session}
    {P : Session → Prop} (first : (m s).Leaves P)
    (next : ∀ a s', P s' → (f a s').Leaves P) : ((m >>= f) s).Leaves P :=
  leaves_bind_of_ok first fun a s' _ => next a s'

/-- What is done on every way out starts from what the step left. -/
theorem Eval.leaves_ensuring {α : Type} {m : Eval α} {after : Session → Session} {s : Session}
    {P Q : Session → Prop} (body : (m s).Leaves P) (final : ∀ s', P s' → Q (after s')) :
    (m.ensuring after s).Leaves Q := by
  unfold Eval.ensuring
  cases ended : m s with
  | ok a s' =>
      rw [ended] at body
      exact final s' body
  | exit flow s' =>
      rw [ended] at body
      exact final s' body
  | crashed s' => trivial
  | unfinished => trivial

/-- A step that puts back what it changed and takes no object away, however it ends. -/
class Eval.Restores {α : Type} (m : Eval α) : Prop where
  restores : ∀ s, s.workspace.WellFormed → (m s).Leaves s.Kept

namespace Eval.Restores

variable {α β : Type}

theorem kept_of_ok {m : Eval α} [step : Restores m] {s s' : Session} {a : α}
    (inOrder : s.workspace.WellFormed) (returned : m s = .ok a s') : s.Kept s' := by
  have ended := step.restores s inOrder
  rwa [returned] at ended

theorem kept_of_exit {m : Eval α} [step : Restores m] {s s' : Session} {flow : Flow}
    (inOrder : s.workspace.WellFormed) (left : m s = .exit flow s') : s.Kept s' := by
  have ended := step.restores s inOrder
  rwa [left] at ended

instance pure (a : α) : Restores (Pure.pure a : Eval α) := ⟨fun _ => Session.Kept.refl⟩

instance leave (flow : Flow) : Restores (Eval.leave flow : Eval α) :=
  ⟨fun _ => Session.Kept.refl⟩

instance unfinished : Restores (Eval.unfinished : Eval α) := ⟨fun _ _ => trivial⟩

instance crash : Restores (Eval.crash : Eval α) := ⟨fun _ _ => trivial⟩

/-- One step after the other.  The second one starts in the session that the first one
left, which is in order. -/
theorem after {m : Eval α} {f : α → Eval β} [first : Restores m] (next : ∀ a, Restores (f a)) :
    Restores (m >>= f) where
  restores s wf := Eval.leaves_bind (first.restores s wf) fun a s' between =>
    ((next a).restores s' between.wellFormed).mono fun _ => between.trans

instance bind {m : Eval α} {f : α → Eval β} [Restores m] [next : ∀ a, Restores (f a)] :
    Restores (m >>= f) :=
  after next

theorem branch {c : Prop} [Decidable c] {m n : Eval α} (yes : Restores m) (no : Restores n) :
    Restores (if c then m else n) := by
  split
  · exact yes
  · exact no

instance ite {c : Prop} [Decidable c] {m n : Eval α} [yes : Restores m] [no : Restores n] :
    Restores (if c then m else n) :=
  branch yes no

/-- The same step for each item of a list. -/
theorem each {f : α → Eval β} (one : ∀ a, Restores (f a)) (items : List α) :
    Restores (items.mapM f) := by
  have loop (items : List α) (done : List β) : Restores (List.mapM.loop f items done) := by
    induction items generalizing done with
    | nil => exact pure _
    | cons item rest ih => exact after fun b => ih (b :: done)
  exact loop items []

instance mapM {f : α → Eval β} [one : ∀ a, Restores (f a)] (items : List α) :
    Restores (items.mapM f) :=
  each one items

instance forM {f : α → Eval PUnit} [one : ∀ a, Restores (f a)] (items : List α) :
    Restores (items.forM f) := by
  induction items with
  | nil => exact pure _
  | cons item rest ih => exact after fun _ => ih

instance granted (result : Option α) : Restores (Eval.granted result) := by
  unfold Eval.granted
  split <;> infer_instance

instance session : Restores Eval.session := ⟨fun _ => Session.Kept.refl⟩

instance get (f : Session → α) : Restores (Eval.get f) := ⟨fun _ => Session.Kept.refl⟩

instance modify (f : Session → Session) [mild : Session.RestoredBy f] :
    Restores (Eval.modify f) :=
  ⟨mild.kept⟩

instance attempt {m : Eval α} [tried : Restores m] : Restores (Eval.attempt m) where
  restores s wf := by
    have start := tried.restores s wf
    unfold Eval.attempt
    cases ended : m s with
    | ok a s' => rwa [ended] at start
    | exit flow s' => rwa [ended] at start
    | crashed s' => trivial
    | unfinished => trivial

instance ensuring {m : Eval α} {after : Session → Session} [body : Restores m]
    [final : Session.RestoredBy after] : Restores (Eval.ensuring m after) where
  restores s wf := Eval.leaves_ensuring (body.restores s wf) fun s' done =>
    done.trans (final.kept s' done.wellFormed)

/-! ### Objects and failures -/

instance alloc (f : Store → α × Store) [keeps : Store.KeepsObjects fun st => (f st).2] :
    Restores (Eval.alloc f) :=
  ⟨fun s wf => .of_store wf (keeps.retains s.store)⟩

instance store : Restores Eval.store := ⟨fun _ => Session.Kept.refl⟩

instance modifyStore (f : Store → Store) [keeps : Store.KeepsObjects f] :
    Restores (Eval.modifyStore f) :=
  ⟨fun s wf => .of_store wf (keeps.retains s.store)⟩

instance cons (car cdr : Value) : Restores (Eval.cons car cdr) := alloc _

instance list (items : List Value) : Restores (Eval.list items) := alloc _

instance listWithTail (items : List Value) (tail : Value) :
    Restores (Eval.listWithTail items tail) :=
  alloc _

instance vector (items : List Value) : Restores (Eval.vector items) := alloc _

instance text (s : String) : Restores (Eval.text s) := alloc _

instance car (v : Value) : Restores (Eval.car v) := get _

instance cdr (v : Value) : Restores (Eval.cdr v) := get _

instance elements (v : Value) : Restores (Eval.elements v) := get _

instance list? (v : Value) : Restores (Eval.list? v) := get _

instance headIs (v : Value) (name : String) : Restores (Eval.headIs v name) := get _

instance signal (condition : String) (data : List Value) :
    Restores (Eval.signal condition data : Eval α) := by
  unfold Eval.signal
  infer_instance

instance error (message : String) : Restores (Eval.error message : Eval α) := by
  unfold Eval.error
  infer_instance

instance wrongType (predicate : String) (got : Value) :
    Restores (Eval.wrongType predicate got : Eval α) :=
  leave _

instance wrongArity (name : String) (minimum : Nat) (maximum : Option Nat) (received : Nat) :
    Restores (Eval.wrongArity name minimum maximum received : Eval α) :=
  leave _

instance properList (v : Value) (predicate : String) : Restores (Eval.properList v predicate) where
  restores s wf := by
    unfold Eval.properList
    split <;> exact Session.Kept.refl wf

instance symbolName (v : Value) : Restores (Eval.symbolName v) := by
  unfold Eval.symbolName
  split <;> infer_instance

/-! ### The workspace -/

instance workspace : Restores Eval.workspace := get _

instance onWorkspace (f : Workspace → α × Workspace)
    [sound : Session.WellFormedBy fun s => (f s.workspace).2] : Restores (Eval.onWorkspace f) :=
  ⟨fun s wf => .of_workspace (sound.wellFormed s wf) (sound.evolves s wf)⟩

instance modifyWorkspace (f : Workspace → Workspace)
    [sound : Session.WellFormedBy fun s => f s.workspace] : Restores (Eval.modifyWorkspace f) :=
  ⟨fun s wf => .of_workspace (sound.wellFormed s wf) (sound.evolves s wf)⟩

instance currentId : Restores Eval.currentId := by
  unfold Eval.currentId
  infer_instance

instance currentBuffer : Restores Eval.currentBuffer := by
  unfold Eval.currentBuffer
  infer_instance

instance modifyBuffer (id : Nat) (f : Buffer → Buffer) [Buffer.EditedBy f] :
    Restores (Eval.modifyBuffer id f) := by
  unfold Eval.modifyBuffer
  infer_instance

instance modifyCurrent (f : Buffer → Buffer) [Buffer.EditedBy f] :
    Restores (Eval.modifyCurrent f) := by
  unfold Eval.modifyCurrent
  infer_instance

instance withBuffer (target : Option Nat) {m : Eval α} [Restores m] :
    Restores (Eval.withBuffer target m) := by
  unfold Eval.withBuffer
  refine after fun saved => ?_
  split
  · simp only
    infer_instance
  · simp only
    infer_instance

/-- What is done with a workspace that was read may count on it to be the one of the
session. -/
theorem reading {f : Workspace → Eval α}
    (next : ∀ s : Session, s.workspace.WellFormed → (f s.workspace s).Leaves s.Kept) :
    Restores (Eval.workspace >>= f) :=
  ⟨next⟩

/-- A workspace may be replaced by what an operation has made of it. -/
theorem leaves_putting {s : Session} {w : Workspace} (wf : w.WellFormed)
    (evolves : s.workspace.Evolves w) (m : Eval α) [next : Restores m] :
    ((Eval.modifyWorkspace (fun _ => w) >>= fun _ => m) s).Leaves s.Kept := by
  have put : s.Kept { s with workspace := w } := .of_workspace wf evolves
  exact (next.restores _ put.wellFormed).mono fun _ => put.trans

/-- In a workspace in order there is nothing to repair before the current buffer is known. -/
theorem currentId_of_wellFormed {s : Session} (wf : s.workspace.WellFormed) :
    Eval.currentId s = .ok s.workspace.current.1 s := by
  obtain ⟨_, _, _, -, -, -, same⟩ := Workspace.current_of_wellFormed wf
  show Outcome.ok s.workspace.current.1 { s with workspace := s.workspace.current.2 } = _
  rw [same]

/-- In a workspace in order, asking for the current buffer finds it and changes nothing. -/
theorem currentBuffer_of_wellFormed {s : Session} (wf : s.workspace.WellFormed) :
    ∃ id b, s.workspace.buffer? id = some b ∧ Eval.currentId s = .ok id s ∧
      Eval.currentBuffer s = .ok b s := by
  obtain ⟨_, id, b, -, -, there, same⟩ := Workspace.current_of_wellFormed wf
  have found := currentId_of_wellFormed wf
  rw [same] at found
  refine ⟨id, b, there, found, ?_⟩
  unfold Eval.currentBuffer
  rw [Eval.bind_of_ok _ found]
  show Outcome.ok ((s.workspace.buffer? id).getD { id, name := scratchName }) s = .ok b s
  rw [there]
  rfl

/-- A buffer may be replaced by an edit of what it is at that time. -/
theorem replaced {s : Session} (wf : s.workspace.WellFormed) {id : Nat} {b b' : Buffer}
    (there : s.workspace.buffer? id = some b) (edited : b.Edited b') :
    (Eval.modifyBuffer id (fun _ => b') s).Leaves s.Kept := by
  refine .of_workspace (Workspace.wellFormed_modifyBuffer wf fun found here => ?_)
    Workspace.evolves_modifyBuffer
  rw [there] at here
  cases here
  exact edited

instance onBuffer (id : Nat) (f : Buffer → α × Buffer)
    [edits : Buffer.EditedBy fun b => (f b).2] : Restores (Eval.onBuffer id f) where
  restores s wf := by
    have read : Eval.workspace s = .ok s.workspace s := rfl
    unfold Eval.onBuffer
    rw [Eval.bind_of_ok _ read]
    cases there : s.workspace.buffer? id with
    | none => exact Session.Kept.refl wf
    | some b => exact replaced wf there (edits.edited b)

instance onCurrent (f : Buffer → α × Buffer) [edits : Buffer.EditedBy fun b => (f b).2] :
    Restores (Eval.onCurrent f) where
  restores s wf := by
    obtain ⟨id, b, there, foundId, found⟩ := currentBuffer_of_wellFormed wf
    unfold Eval.onCurrent
    rw [Eval.bind_of_ok _ foundId, Eval.bind_of_ok _ found]
    exact replaced wf there (edits.edited b)

end Eval.Restores

end EditorLisp
