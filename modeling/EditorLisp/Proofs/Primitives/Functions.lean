import EditorLisp.Primitives.Command
import EditorLisp.Primitives.HigherOrder
import EditorLisp.Primitives.Hook
import EditorLisp.Primitives.Keymap
import EditorLisp.Primitives.Report
import EditorLisp.Primitives.Symbol
import EditorLisp.Proofs.Primitives.Values

/-!
# Functions, symbols and keymaps

The primitives that call functions, and those that change what names stand for.  A
function is called through the interpreter, which puts back what it changed; what calls it
for each item of a list goes by induction on the list.
-/

namespace EditorLisp.Primitives

open Eval Eval.Restores

variable (I : Interp) [I.Restores] (args : List Value) (v : Value)

/-! ## Functions of functions -/

section HigherOrder

variable (function : Value) (items : List Value)

instance : Restores (funcall I args) := by
  unfold funcall
  infer_instance

instance : Restores (applyList I args) := by
  unfold applyList
  refine after fun _ => ?_
  split <;> infer_instance

instance : Restores (mapValues I function items) := by
  induction items with
  | nil => exact pure _
  | cons item rest ih =>
      unfold mapValues
      infer_instance

instance : Restores (mapSequence I function v) := by
  unfold mapSequence
  infer_instance

instance (name : String) : Restores (mapping name I args) := by
  unfold mapping
  infer_instance

instance : Restores (mapc I args) := by
  unfold mapc
  infer_instance

instance : Restores (mapcan I args) := by
  unfold mapcan
  infer_instance

instance : Restores (mapconcat I args) := by
  unfold mapconcat
  infer_instance

instance : Restores (Primitives.evalForm I args) := by
  unfold Primitives.evalForm
  infer_instance

instance (fuel : Nat) : Restores (expandAll I fuel v) := by
  induction fuel generalizing v with
  | zero => exact Restores.unfinished
  | succ fuel ih =>
      unfold expandAll
      refine after fun expansion => ?_
      split <;> infer_instance

instance : Restores (macroexpand1 I args) := by
  unfold macroexpand1
  infer_instance

instance : Restores (macroexpand I args) := by
  unfold macroexpand
  infer_instance

instance (fuel : Nat) (front back : List Value) :
    Restores (mergeBy I function fuel front back) := by
  fun_induction mergeBy I function fuel front back with
  | case1 fuel a as b bs ihBack ihFront => infer_instance
  | case2 => infer_instance

instance (fuel : Nat) : Restores (sortBy I function fuel items) := by
  induction fuel generalizing items with
  | zero => exact pure _
  | succ fuel ih =>
      unfold sortBy
      infer_instance

omit [I.Restores] in
theorem length_of_mergeBy {fuel : Nat} {front back merged : List Value} {s t : Session}
    (returned : mergeBy I function fuel front back s = .ok merged t) :
    merged.length = front.length + back.length := by
  fun_induction mergeBy I function fuel front back generalizing merged s with
  | case1 fuel a as b bs ihBack ihFront =>
      obtain ⟨hit, s', -, taken⟩ := ok_of_bind returned
      split at taken
      · obtain ⟨rest, t', others, ⟨⟩⟩ := ok_of_bind taken
        rw [List.length_cons, ihBack others]
        simp only [List.length_cons]
        omega
      · obtain ⟨rest, t', others, ⟨⟩⟩ := ok_of_bind taken
        rw [List.length_cons, ihFront others]
        simp only [List.length_cons]
        omega
  | case2 =>
      cases returned
      exact List.length_append

omit [I.Restores] in
/-- Sorting keeps the number of values. -/
theorem length_of_sortBy {fuel : Nat} {sorted : List Value} {s t : Session}
    (returned : sortBy I function fuel items s = .ok sorted t) :
    sorted.length = items.length := by
  induction fuel generalizing items sorted s t with
  | zero =>
      cases returned
      rfl
  | succ fuel ih =>
      unfold sortBy at returned
      split at returned
      · cases returned
        rfl
      · obtain ⟨front, s', sortedFront, later⟩ := ok_of_bind returned
        obtain ⟨back, s'', sortedBack, merged⟩ := ok_of_bind later
        rw [length_of_mergeBy I function merged, ih _ sortedFront, ih _ sortedBack,
          ← List.length_append, List.take_append_drop]

/-- A vector that is sorted in place is as long as it was before. -/
instance : Restores (sort I args) := by
  unfold sort
  refine after fun _ => ?_
  dsimp only
  split
  next ref _ =>
    refine ⟨fun s wf => ?_⟩
    have read : sequenceElements (.vector ref) s =
      .ok (s.store.vectors[ref]?.getD #[]).toList s := rfl
    rw [bind_of_ok _ read]
    refine leaves_bind_of_ok (restores s wf) fun sorted t returned kept => ?_
    have retains : s.store.Retains (t.store.setItems (.vector ref) sorted.toArray) := by
      refine Store.KeepsObjects.retains_setItems kept.retains fun old there => ?_
      rw [List.size_toArray, length_of_sortBy I _ _ returned, there]
      rfl
    exact ⟨⟨kept.depth_eq, kept.loading_eq, kept.wellFormed⟩, retains, kept.evolves, kept.develops,
      kept.passes.clock_le, kept.passes.changed⟩
  next => infer_instance

instance (keep : Bool) : Restores (selectValues I function keep items) := by
  induction items with
  | nil => exact pure _
  | cons item rest ih =>
      unfold selectValues
      infer_instance

instance (keep : Bool) : Restores (select I function v keep) := by
  unfold select
  repeat refine after fun _ => ?_
  split <;> infer_instance

instance : Restores (findValue I function items) := by
  induction items with
  | nil => exact pure _
  | cons item rest ih =>
      unfold findValue
      infer_instance

instance : Restores (seqFind I args) := by
  unfold seqFind
  infer_instance

instance : Restores (clFindIf I args) := by
  unfold clFindIf
  infer_instance

instance : Restores (seqRandomElt I args) := by
  unfold seqRandomElt
  infer_instance

instance : Restores (anyBy I function v items) := by
  induction items with
  | nil => exact pure _
  | cons item rest ih =>
      unfold anyBy
      infer_instance

instance : Restores (seqContainsP I args) := by
  unfold seqContainsP
  repeat refine after fun _ => ?_
  split <;> infer_instance

instance : Restores (reduce I function v items) := by
  induction items generalizing v with
  | nil => exact pure _
  | cons item rest ih =>
      unfold reduce
      infer_instance

instance : Restores (seqReduce I args) := by
  unfold seqReduce
  infer_instance

instance : Restores (clPosition I args) := by
  unfold clPosition
  repeat refine after fun _ => ?_
  split <;> infer_instance

instance : Restores (firstTrue I function items) := by
  induction items with
  | nil => exact pure _
  | cons item rest ih =>
      unfold firstTrue
      infer_instance

instance : Restores (clSome I args) := by
  unfold clSome
  infer_instance

instance : Restores (allTrue I function items) := by
  induction items with
  | nil => exact pure _
  | cons item rest ih =>
      unfold allTrue
      infer_instance

instance : Restores (clEvery I args) := by
  unfold clEvery
  infer_instance

instance (name : String) (exact keep : Bool) : Restores (selection name exact keep I args) := by
  unfold selection
  infer_instance

instance : AllRestore I higherOrder := by
  unfold higherOrder
  repeat refine .cons ?_
  exact .nil

end HigherOrder

/-! ## Symbols -/

section Symbols

instance : Restores (symbolNameOf I args) := by
  unfold symbolNameOf
  infer_instance

instance : Restores (makeSymbol I args) := by
  unfold makeSymbol
  infer_instance

instance : Restores (intern I args) := by
  unfold intern
  infer_instance

instance : Restores (internSoft I args) := by
  unfold internSoft
  refine after fun _ => ?_
  split <;> infer_instance

instance : Restores (symbolValue I args) := by
  unfold symbolValue
  refine restores_unary fun v => after fun name => ?_
  split
  · infer_instance
  · refine after fun s => ?_
    split <;> infer_instance

instance : Restores (boundp I args) := by
  unfold boundp
  infer_instance

instance : Restores (setValue I args) := by
  unfold setValue
  infer_instance

instance : Restores (makunbound I args) := by
  unfold makunbound
  infer_instance

instance : Restores (defaultValue I args) := by
  unfold defaultValue
  refine restores_unary fun v => after fun s => after fun name => ?_
  split <;> infer_instance

instance : Restores (setDefault I args) := by
  unfold setDefault
  infer_instance

instance : Restores (specialVariableP I args) := by
  unfold specialVariableP
  infer_instance

instance : Restores (symbolFunction I args) := by
  unfold symbolFunction
  repeat refine after fun _ => ?_
  split <;> infer_instance

instance : Restores (indirectFunction I args) := by
  unfold indirectFunction
  refine after fun _ => ?_
  split
  · infer_instance
  · split <;> infer_instance

instance : Restores (fboundp I args) := by
  unfold fboundp
  infer_instance

instance : Restores (fset I args) := by
  unfold fset
  infer_instance

instance : Restores (fmakunbound I args) := by
  unfold fmakunbound
  infer_instance

instance : Restores (functionp I args) := by
  unfold functionp
  refine after fun _ => ?_
  split <;> infer_instance

instance : Restores (macrop I args) := by
  unfold macrop
  refine after fun _ => ?_
  split <;> infer_instance

instance (name : String) (key value : Value) : Restores (setProperty name key value) := by
  unfold setProperty
  infer_instance

instance : Restores (put I args) := by
  unfold put
  infer_instance

instance (name : String) : Restores (properties name) := Eval.Restores.get _

instance : Restores (getProperty I args) := by
  unfold getProperty
  infer_instance

instance : Restores (symbolPlist I args) := by
  unfold symbolPlist
  infer_instance

instance : Restores (setplist I args) := by
  unfold setplist
  infer_instance

instance : AllRestore I symbols := by
  unfold symbols
  repeat refine .cons ?_
  exact .nil

end Symbols

/-! ## Hooks -/

section Hooks

variable (hook : String) (stop : Value → Bool)

instance : Restores (hookFunctions hook) := by
  unfold hookFunctions
  infer_instance

instance (functions : List Value) : Restores (callUntil I args stop functions) := by
  induction functions with
  | nil => exact pure _
  | cons function rest ih =>
      unfold callUntil
      infer_instance

instance : Restores (runHook I hook args stop) := by
  unfold runHook
  infer_instance

instance (functions : List Value) : Restores (setHook hook functions) := by
  unfold setHook
  infer_instance

instance : Restores (addHook I args) := by
  unfold addHook
  dsimp only
  infer_instance

instance : Restores (removeHook I args) := by
  unfold removeHook
  infer_instance

instance (hooks : List Value) : Restores (runAll I hooks) := by
  induction hooks with
  | nil => exact pure _
  | cons hook rest ih =>
      unfold runAll
      infer_instance

instance : Restores (runHooks I args) := by
  unfold runHooks
  infer_instance

instance (name : String) (answer : Option Value → Value) :
    Restores (runWith name stop answer I args) := by
  unfold runWith
  infer_instance

instance : AllRestore I hooks := by
  unfold hooks
  repeat refine .cons ?_
  exact .nil

end Hooks

/-! ## Reports -/

section Reports

instance : Restores (formattedArgs args) := by
  unfold formattedArgs
  infer_instance

instance : Restores (message I args) := by
  unfold message
  infer_instance

instance : Restores (formatMessage I args) := by
  unfold formatMessage
  infer_instance

instance (name : String) : Restores (complaint name I args) := by
  unfold complaint
  infer_instance

instance : Restores (signalForm I args) := by
  unfold signalForm
  infer_instance

instance : Restores (throwForm I args) := by
  unfold throwForm
  infer_instance

instance : Restores (errorMessageString I args) := by
  unfold errorMessageString
  infer_instance

/-- The conditions are changed to what an accepted definition has made of them. -/
theorem restores_registering (name message parent : String) : Restores (do
    match (← session).conditions.define name message parent with
    | .ok conditions =>
      modify fun s => { s with conditions }
      return .nil
    | .error refusal => error refusal.message : Eval Value) where
  restores s wf := by
    rw [bind_session _ s]
    cases accepted : s.conditions.define name message parent with
    | ok conditions =>
        exact ⟨⟨rfl, rfl, wf⟩, .refl _, .refl _, .of_define accepted,
          .of_eq rfl (Nat.le_refl _)⟩
    | error refusal => exact restores s wf

instance : Restores (defineError I args) := by
  unfold defineError
  dsimp only
  refine after fun _ => after fun name => ?_
  -- The message may be left out, and so may the parent.
  split
  all_goals
    refine after fun message => ?_
    split
    · exact after fun parent => restores_registering name message parent
    · exact after fun head => after fun parent => restores_registering name message parent

instance (function : Value) (text : List Char) : Restores (emitChars I function text) := by
  induction text with
  | nil => exact pure _
  | cons c rest ih =>
      unfold emitChars
      infer_instance

instance (out : String) : Restores (emit I out v) := by
  unfold emit
  split <;> infer_instance

instance (name : String) (maximum : Nat) (form : Session → Value → String) :
    Restores (printer name maximum form I args) := by
  unfold printer
  infer_instance

instance : Restores (terpri I args) := by
  unfold terpri
  infer_instance

instance : AllRestore I reports := by
  unfold reports
  repeat refine .cons ?_
  exact .nil

end Reports

/-! ## Commands -/

section Commands

variable (argument : Option Value)

instance : Restores (noteCommand v) := by
  unfold noteCommand
  split <;> infer_instance

instance : Restores (callWithArgument I v argument) := by
  unfold callWithArgument
  split
  · infer_instance
  · refine after fun result => ?_
    split <;> infer_instance

instance : Restores (callCommand I v argument) := by
  unfold callCommand
  refine after fun result => ?_
  split <;> infer_instance

instance : Restores (invokeCommand I v argument) := by
  unfold invokeCommand
  infer_instance

instance : Restores currentArgument? := by
  unfold currentArgument?
  infer_instance

instance : Restores (callInteractively I args) := by
  unfold callInteractively
  infer_instance

instance : Restores (commandExecute I args) := by
  unfold commandExecute
  infer_instance

instance : Restores (funcallInteractively I args) := by
  unfold funcallInteractively
  infer_instance

instance : Restores (callFn I args) := by
  unfold callFn
  dsimp only
  refine after fun _ => after fun s => ?_
  split <;> infer_instance

instance : Restores (commandp I args) := by
  unfold commandp
  infer_instance

instance : AllRestore I commands := by
  unfold commands
  repeat refine .cons ?_
  exact .nil

end Commands

/-! ## Keymaps -/

section Keymaps

instance edited_localMap (map : Option Value) :
    Buffer.EditedBy fun b => { b with localMap := map } :=
  ⟨fun _ => .aside rfl rfl rfl rfl⟩

instance : Restores (requireKeymap v) := by
  unfold requireKeymap
  infer_instance

instance : Restores (requireKey v) := by
  unfold requireKey
  refine after fun s => ?_
  split <;> infer_instance

instance (map : Keymap) : Restores (newKeymap map) := alloc _

instance (map binding : Value) (key : String) : Restores (bindKey map key binding) := by
  unfold bindKey
  infer_instance

instance (name : String) (map : Keymap) : Restores (makeKeymap name map I args) := by
  unfold makeKeymap
  infer_instance

instance : Restores (defineKey I args) := by
  unfold defineKey
  infer_instance

instance : Restores (keymapSet I args) := by
  unfold keymapSet
  infer_instance

instance : Restores (setKeymapParent I args) := by
  unfold setKeymapParent
  dsimp only
  infer_instance

instance : Restores (keymapParent I args) := by
  unfold keymapParent
  infer_instance

instance : Restores (suppressKeymap I args) := by
  unfold suppressKeymap
  infer_instance

instance : Restores (lookupKey I args) := by
  unfold lookupKey
  infer_instance

instance : Restores (currentGlobalMap I args) := by
  unfold currentGlobalMap
  infer_instance

instance : Restores (currentLocalMap I args) := by
  unfold currentLocalMap
  infer_instance

instance : Restores (installLocalMap v) := by
  unfold installLocalMap
  infer_instance

instance : Restores (useLocalMap I args) := by
  unfold useLocalMap
  infer_instance

instance : Restores (useGlobalMap I args) := by
  unfold useGlobalMap
  infer_instance

instance : Restores (globalSetKey I args) := by
  unfold globalSetKey
  infer_instance

instance : Restores ensureLocalMap := by
  unfold ensureLocalMap
  refine after fun b => ?_
  split <;> infer_instance

instance : Restores (localSetKey I args) := by
  unfold localSetKey
  infer_instance

instance (key : String) : Restores (activeBinding? key) := by
  unfold activeBinding?
  infer_instance

instance : Restores (keymapLookup I args) := by
  unfold keymapLookup
  repeat refine after fun _ => ?_
  dsimp only
  split <;> infer_instance

instance : Restores (keyBinding I args) := by
  unfold keyBinding
  infer_instance

instance : AllRestore I keymaps := by
  unfold keymaps
  repeat refine .cons ?_
  exact .nil

end Keymaps

end EditorLisp.Primitives
