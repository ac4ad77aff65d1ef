import EditorLisp.Proofs.Evaluation.Call
import EditorLisp.Proofs.Evaluation.Dynamic

/-!
# The scope of a variable

A construct that binds variables puts the special ones into the values that are in force and
the others into a new frame.  Look-up asks for the same distinction, so as long as both go
by the same set of special variables, the variable evaluates to what it was bound to.
-/

namespace EditorLisp

/-! ## Sorting bindings -/

/-- Bindings of other names may be left out. -/
theorem lastBound?_filter {keep : String × Value → Bool} {name : String}
    (kept : ∀ value, keep (name, value) = true) (bindings : List (String × Value)) :
    lastBound? (bindings.filter keep) name = lastBound? bindings name := by
  induction bindings with
  | nil => rfl
  | cons binding rest ih =>
      obtain ⟨other, value⟩ := binding
      rw [lastBound?_cons, ← ih]
      by_cases keeps : keep (other, value) = true
      · rw [List.filter_cons_of_pos keeps, lastBound?_cons]
      · rw [List.filter_cons_of_neg keeps]
        have different : other ≠ name := by
          rintro rfl
          exact keeps (kept value)
        rw [if_neg different, Option.or_none]

/-- Sorted by the special variables, the bindings that count for a name are all in one part. -/
theorem lastBound?_partition (specials : Table String Unit) (bindings : List (String × Value))
    (name : String) :
    lastBound?
        (if specials.contains name then (bindings.partition fun b => specials.contains b.1).1
          else (bindings.partition fun b => specials.contains b.1).2) name =
      lastBound? bindings name := by
  rw [List.partition_eq_filter_filter]
  cases special : specials.contains name with
  | true => exact lastBound?_filter (fun _ => special) bindings
  | false => exact lastBound?_filter (fun _ => congrArg Bool.not special) bindings

/-! ## Sessions with bindings -/

namespace Session

variable {s : Session} {name : String} {value : Value} {frame : Nat}

/-- Dynamic bindings change no more than the two places where variables have values. -/
theorem bindSpecials_eq (s : Session) (bindings : List (String × Value)) :
    ∃ globals workspace, (s.bindSpecials bindings).2 = { s with globals, workspace } := by
  induction bindings generalizing s with
  | nil => exact ⟨_, _, rfl⟩
  | cons binding rest ih =>
      obtain ⟨globals, workspace, first⟩ := s.bindSpecial_eq binding.1 binding.2
      obtain ⟨globals', workspace', others⟩ := ih { s with globals, workspace }
      refine ⟨globals', workspace', ?_⟩
      rw [bindSpecials_cons]
      show ((s.bindSpecial binding.1 binding.2).2.bindSpecials rest).2 = _
      rw [first, others]

/-- The session in which the body of a construct runs: with a new frame for the ordinary
variables and dynamic bindings of the special ones. -/
def scope (s : Session) (parent : Nat) (dynamic lexical : List (String × Value)) : Session :=
  ({ s with store := (s.store.childFrameWith parent lexical).2 }.bindSpecials dynamic).2

/-- The body of a construct is nested no deeper than its bindings. -/
theorem depth_scope (s : Session) (parent : Nat) (dynamic lexical : List (String × Value)) :
    (s.scope parent dynamic lexical).depth = s.depth ∧
      (s.scope parent dynamic lexical).config = s.config := by
  obtain ⟨globals, workspace, only⟩ :=
    bindSpecials_eq { s with store := (s.store.childFrameWith parent lexical).2 } dynamic
  unfold scope
  rw [only]
  exact ⟨rfl, rfl⟩

/-- In the scope of its binding a variable has the value it was bound to. -/
theorem valueIn?_scope (inOrder : s.workspace.WellFormed) (parent : Nat)
    {dynamic lexical : List (String × Value)}
    (bound : lastBound? (if s.isSpecial name then dynamic else lexical) name = some value) :
    (s.scope parent dynamic lexical).valueIn? name s.store.frames.size = some value := by
  unfold scope
  have kind := isSpecial_bindSpecials { s with store := (s.store.childFrameWith parent lexical).2 }
    dynamic name
  cases special : s.isSpecial name with
  | true =>
      rw [special, if_pos rfl] at bound
      rw [valueIn?_of_isSpecial (kind.trans special)]
      have outer := outerValue?_bindSpecials
        (s := { s with store := (s.store.childFrameWith parent lexical).2 }) inOrder dynamic name
      rw [outer, bound, Option.some_or]
  | false =>
      rw [special, if_neg Bool.false_ne_true] at bound
      refine valueIn?_of_lookupIn? (kind.trans special) ?_
      obtain ⟨globals, workspace, only⟩ :=
        bindSpecials_eq { s with store := (s.store.childFrameWith parent lexical).2 } dynamic
      rw [only]
      exact Store.lookupIn?_childFrameWith parent bound

/-- Evaluated in a frame, a variable gives a value, unless evaluation is nested too deeply
for any form. -/
def Yields (s : Session) (name : String) (frame : Nat) (value : Value) : Prop :=
  s.depth < s.config.maxDepth →
    ∀ I : Interp, Eval.evalForm I (.symbol name) frame s = .ok value s

theorem yields_of_valueIn? (known : s.valueIn? name frame = some value) :
    s.Yields name frame value :=
  fun room _ => Eval.evalForm_symbol room known

/-- What a variable evaluates to where only a frame binds it: an ordinary one to what the
frame says, a special one to whatever it does outside of frames. -/
structure FrameYields (t : Session) (name : String) (frame : Nat) (value : Value) : Prop where
  ordinary : t.isSpecial name = false → t.Yields name frame value
  special : t.isSpecial name = true → t.valueIn? name frame = t.outerValue? name

theorem frameYields_of_lookupIn? (bound : s.store.lookupIn? frame name = some value) :
    s.FrameYields name frame value where
  ordinary isOrdinary := yields_of_valueIn? (valueIn?_of_lookupIn? isOrdinary bound)
  special isSpecial := valueIn?_of_isSpecial isSpecial frame

end Session

/-- What comes down to a step that starts in a session in which a variable has a value in a
frame, no deeper than in a given session, and undoes dynamic bindings after it. -/
def Eval.Enters {α : Type} (next : Eval α) (frame : Nat) (name : String) (value : Value)
    (s : Session) (o : Outcome α) : Prop :=
  ∃ t saved,
    o = next.ensuring (·.undoBindings saved) t ∧
      t.depth = s.depth ∧ t.config = s.config ∧ t.Yields name frame value

/-- What comes down to a step, with others after it, that starts in a session in which a
frame alone binds a variable, no deeper than in a given session. -/
def Eval.EntersFramed {α β : Type} (next : Eval α) (frame : Nat) (name : String) (value : Value)
    (s : Session) (o : Outcome β) : Prop :=
  ∃ t after,
    o = (next >>= after) t ∧
      t.depth = s.depth ∧ t.config = s.config ∧ t.FrameYields name frame value

/-- Steps that follow do not matter for what a step comes down to. -/
theorem Eval.EntersFramed.bind {α β γ : Type} {next : Eval α} {frame : Nat} {name : String}
    {value : Value} {s s' : Session} {m : Eval β} (entered : EntersFramed next frame name value s (m s'))
    (f : β → Eval γ) : EntersFramed next frame name value s ((m >>= f) s') := by
  obtain ⟨t, after, reached, same⟩ := entered
  refine ⟨t, fun result => after result >>= f, ?_, same⟩
  rw [← bind_assoc]
  exact bind_of_eq f reached

/-- What comes down to running a body in some frame in which a variable has a value. -/
def Interp.RunsWith (I : Interp) (body : List Value) (name : String) (value : Value) (s : Session)
    (o : Outcome Value) : Prop :=
  ∃ frame, Eval.Enters (I.evalBody frame body) frame name value s o

namespace Eval

variable {I : Interp} {s : Session} {name : String} {value : Value} {body : List Value}

theorem runsWith_withDynamic (inOrder : s.workspace.WellFormed) (parent : Nat)
    {dynamic lexical : List (String × Value)}
    (bound : lastBound? (if s.isSpecial name then dynamic else lexical) name = some value) :
    I.RunsWith body name value s
      (withDynamic dynamic (I.evalBody s.store.frames.size body)
        { s with store := (s.store.childFrameWith parent lexical).2 }) := by
  have yields := Session.yields_of_valueIn? (Session.valueIn?_scope inOrder parent bound)
  obtain ⟨depth, config⟩ := s.depth_scope parent dynamic lexical
  exact ⟨_, _, _, withDynamic_eq _ _ _, depth, config, yields⟩

/-- A number of forms that is neither too small nor too great is accepted. -/
theorem formArity_ok {forms : List Value} {minimum : Nat} {maximum : Option Nat}
    (enough : minimum ≤ forms.length) (few : maximum.any (· < forms.length) = false) (form : String)
    (s : Session) : formArity form forms minimum maximum s = .ok () s := by
  have accepted : ¬(forms.length < minimum ∨ maximum.any (· < forms.length) = true) := by
    rintro (short | long)
    · exact absurd enough (Nat.not_le_of_lt short)
    · rw [few] at long
      cases long
  unfold formArity
  rw [if_neg accepted]
  rfl

/-! ## Functions -/

/-- The parameters of a function with what they are bound to in a call; the arguments that
are left over are made into a list. -/
def argumentBindings (c : Closure) (args : List Value) : Eval (List (String × Value)) :=
  match c.params.rest with
  | some name => do
    let rest ← list (c.params.pairUp args).2
    pure ((c.params.pairUp args).1 ++ [(name, rest)])
  | none => pure (c.params.pairUp args).1

instance (c : Closure) (args : List Value) : Restores (argumentBindings c args) := by
  unfold argumentBindings
  split <;> infer_instance

/-- A call that is accepted runs the body in the scope of the parameters. -/
theorem applyClosure_eq {c : Closure} {args : List Value} {bindings : List (String × Value)}
    {s₁ : Session}
    (accepted : ¬(args.length < c.params.least ∨ c.params.most?.any (· < args.length)))
    (paired : argumentBindings c args s = .ok bindings s₁) :
    applyClosure I c args s =
      withDynamic (bindings.partition fun b => s₁.specials.contains b.1).1
        (I.evalBody s₁.store.frames.size c.body)
        { s₁ with
          store := (s₁.store.childFrameWith (c.frame.getD Store.rootFrame)
            (bindings.partition fun b => s₁.specials.contains b.1).2).2 } := by
  unfold applyClosure
  unfold argumentBindings at paired
  rw [if_neg accepted]
  cases rest : c.params.rest with
  | none =>
      rw [rest] at paired
      cases paired
      rfl
  | some name =>
      rw [rest] at paired
      obtain ⟨listed, s', made, ⟨⟩⟩ := ok_of_bind paired
      exact (bind_of_ok _ made).trans rfl

/-- The body of a function sees a parameter as the argument it was bound to. -/
theorem runsWith_applyClosure {c : Closure} {args : List Value}
    {bindings : List (String × Value)} {s₁ : Session}
    (accepted : ¬(args.length < c.params.least ∨ c.params.most?.any (· < args.length)))
    (paired : argumentBindings c args s = .ok bindings s₁) (inOrder : s.workspace.WellFormed)
    (bound : lastBound? bindings name = some value) :
    I.RunsWith c.body name value s₁ (applyClosure I c args s) := by
  have made := Restores.kept_of_ok inOrder paired
  rw [applyClosure_eq accepted paired]
  exact runsWith_withDynamic made.wellFormed _ ((lastBound?_partition _ _ _).trans bound)

end Eval

end EditorLisp
