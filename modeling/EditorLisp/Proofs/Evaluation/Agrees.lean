import EditorLisp.Evaluation.Basic
import EditorLisp.Evaluation.Function

/-!
# Steps that agree

An interpreter with a higher bound answers whatever one with a lower bound answers, and in
the same way.  `Eval.Agrees` says so of two steps: where the first one finishes, the second
one ends alike, with the same session.  The property is a class, as is that of two
interpreters, so that steps put together alike from steps that agree are known to agree
without further ado.
-/

namespace EditorLisp

/-- The second outcome is the first one, unless that is none. -/
def Outcome.Agrees {α : Type} (o o' : Outcome α) : Prop := o = .unfinished ∨ o' = o

/-- The second step ends like the first one wherever that finishes. -/
class Eval.Agrees {α : Type} (m m' : Eval α) : Prop where
  agrees : ∀ s, (m s).Agrees (m' s)

/-- The second interpreter goes further than the first one, and answers alike. -/
class Interp.Agrees (I J : Interp) : Prop where
  fuel_le : I.fuel ≤ J.fuel
  call : ∀ request, Eval.Agrees (I.call request) (J.call request)
  isPrimitive_eq : J.isPrimitive = I.isPrimitive

namespace Eval.Agrees

variable {α β : Type}

instance refl (m : Eval α) : Agrees m m := ⟨fun _ => .inr rfl⟩

theorem of_eq {m m' : Eval α} (same : m = m') : Agrees m m' := same ▸ refl m

theorem trans {m m' m'' : Eval α} (first : Agrees m m') (second : Agrees m' m'') :
    Agrees m m'' where
  agrees s := by
    rcases first.agrees s with never | same
    · exact .inl never
    · rcases second.agrees s with never' | same'
      · exact .inl (same ▸ never')
      · exact .inr (same'.trans same)

instance unfinished (m : Eval α) : Agrees Eval.unfinished m := ⟨fun _ => .inl rfl⟩

/-- A step that has finished has ended for good. -/
theorem eq_of_finished {m m' : Eval α} [step : Agrees m m'] {s : Session}
    (finished : m s ≠ .unfinished) : m' s = m s :=
  (step.agrees s).resolve_left finished

/-- One step after the other. -/
theorem after {m m' : Eval α} {f f' : α → Eval β} [first : Agrees m m']
    (next : ∀ a, Agrees (f a) (f' a)) : Agrees (m >>= f) (m' >>= f') where
  agrees s := by
    show (Eval.bind m f s).Agrees (Eval.bind m' f' s)
    unfold Eval.bind
    rcases first.agrees s with never | same
    · left
      rw [never]
    · rw [same]
      cases m s with
      | ok a s' => exact (next a).agrees s'
      | exit flow s' => exact .inr rfl
      | crashed s' => exact .inr rfl
      | unfinished => exact .inr rfl

instance bind {m m' : Eval α} {f f' : α → Eval β} [Agrees m m'] [next : ∀ a, Agrees (f a) (f' a)] :
    Agrees (m >>= f) (m' >>= f') :=
  after next

theorem branch {c : Prop} [Decidable c] {m m' n n' : Eval α} (yes : Agrees m m')
    (no : Agrees n n') : Agrees (if c then m else n) (if c then m' else n') := by
  split
  · exact yes
  · exact no

instance ite {c : Prop} [Decidable c] {m m' n n' : Eval α} [yes : Agrees m m'] [no : Agrees n n'] :
    Agrees (if c then m else n) (if c then m' else n') :=
  branch yes no

/-- The same step for each item of a list. -/
theorem each {f f' : α → Eval β} (one : ∀ a, Agrees (f a) (f' a)) (items : List α) :
    Agrees (items.mapM f) (items.mapM f') := by
  have loop (items : List α) (done : List β) :
      Agrees (List.mapM.loop f items done) (List.mapM.loop f' items done) := by
    induction items generalizing done with
    | nil => exact refl _
    | cons item rest ih => exact after fun b => ih (b :: done)
  exact loop items []

instance mapM {f f' : α → Eval β} [one : ∀ a, Agrees (f a) (f' a)] (items : List α) :
    Agrees (items.mapM f) (items.mapM f') :=
  each one items

instance attempt {m m' : Eval α} [tried : Agrees m m'] :
    Agrees (Eval.attempt m) (Eval.attempt m') where
  agrees s := by
    unfold Eval.attempt
    rcases tried.agrees s with never | same
    · left
      rw [never]
    · right
      rw [same]

theorem agrees_ensuring {m m' : Eval α} {s : Session} (body : (m s).Agrees (m' s))
    (after : Session → Session) : (m.ensuring after s).Agrees (m'.ensuring after s) := by
  unfold Eval.ensuring
  rcases body with never | same
  · left
    rw [never]
  · right
    rw [same]

instance ensuring {m m' : Eval α} {after : Session → Session} [body : Agrees m m'] :
    Agrees (Eval.ensuring m after) (Eval.ensuring m' after) :=
  ⟨fun s => agrees_ensuring (body.agrees s) after⟩

instance withBuffer (target : Option Nat) {m m' : Eval α} [Agrees m m'] :
    Agrees (Eval.withBuffer target m) (Eval.withBuffer target m') := by
  unfold Eval.withBuffer
  dsimp only
  refine after fun saved => ?_
  split <;> infer_instance

instance withDynamic (bindings : List (String × Value)) {m m' : Eval α} [body : Agrees m m'] :
    Agrees (Eval.withDynamic bindings m) (Eval.withDynamic bindings m') := by
  unfold Eval.withDynamic
  have inside (bindings : List (String × Value)) :
      Agrees (fun s => (m.ensuring (·.undoBindings (s.bindSpecials bindings).1))
          (s.bindSpecials bindings).2)
        (fun s => (m'.ensuring (·.undoBindings (s.bindSpecials bindings).1))
          (s.bindSpecials bindings).2) :=
    ⟨fun _ => agrees_ensuring (body.agrees _) _⟩
  exact branch inferInstance (inside bindings)

/-! ## The interpreter -/

variable {I J : Interp} [levels : I.Agrees J] (forms args : List Value) (frame : Nat)

instance call (request : Request) : Agrees (I.call request) (J.call request) :=
  levels.call request

instance eval (form : Value) : Agrees (I.eval form frame) (J.eval form frame) := call _

instance apply (function : Value) : Agrees (I.apply function args) (J.apply function args) :=
  call _

instance evalBody : Agrees (I.evalBody frame forms) (J.evalBody frame forms) := by
  fun_induction I.evalBody frame forms with
  | case1 => exact refl _
  | case2 form => exact eval frame form
  | case3 form rest more ih =>
      rw [Interp.evalBody.eq_3 J _ _ _ more]
      infer_instance

instance evalArgs : Agrees (I.evalArgs frame forms) (J.evalArgs frame forms) := by
  induction forms with
  | nil => exact refl _
  | cons form rest ih =>
      unfold Interp.evalArgs
      infer_instance

instance applyClosure (c : Closure) :
    Agrees (Eval.applyClosure I c args) (Eval.applyClosure J c args) := by
  unfold Eval.applyClosure
  dsimp only
  refine branch (refl _) ?_
  split <;> infer_instance

end Eval.Agrees

/-! ## What names stand for -/

section Functions

variable {I J : Interp} [levels : I.Agrees J]

theorem Session.functionFrom_eq (s : Session) (fuel : Nat) (name : String) :
    s.functionFrom J fuel name = s.functionFrom I fuel name := by
  induction fuel generalizing name with
  | zero => rfl
  | succ fuel ih =>
      unfold functionFrom
      rw [levels.isPrimitive_eq]
      split
      next next_ _ => exact ih next_
      next => rfl
      next => rfl

/-- What a name stands for does not depend on the bound. -/
theorem Session.function?_eq (s : Session) (name : String) :
    s.function? J name = s.function? I name :=
  functionFrom_eq s aliasLimit name

theorem Session.isCallable_eq (s : Session) (name : String) :
    s.isCallable J name = s.isCallable I name := by
  unfold isCallable
  rw [levels.isPrimitive_eq]

instance Eval.Agrees.expandOnce (form : Value) :
    Agrees (Eval.expandOnce I form) (Eval.expandOnce J form) := by
  unfold Eval.expandOnce
  refine after fun s => ?_
  split
  next => exact refl _
  next name _ =>
    refine branch ?_ (refl _)
    rw [s.function?_eq (I := I) (J := J)]
    split <;> infer_instance

end Functions

end EditorLisp
