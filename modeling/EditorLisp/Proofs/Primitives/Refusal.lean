import EditorLisp.Event
import EditorLisp.Proofs.Levels

/-!
# Functions that refuse their arguments

A command that needs an argument is called again with one after it has refused to be called
without, and a timer's function that takes no argument is called again after it has refused the
buffer.  Who has refused is told by the name and the number of arguments in the arity error that
the call was left by.  An error of something that the function has called may have both as well.
If none has, then the function has refused by itself: a function of the program has not even
been started, and a primitive has evaluated nothing and called nothing.
-/

namespace EditorLisp

open Eval

/-! ## Steps that arity errors do not leave -/

section Spared

variable {α β : Type} {P : ArityError → Prop} {m : Eval α}

/-- A step is not left by an arity error of some kind. -/
def Eval.Spared (P : ArityError → Prop) (m : Eval α) : Prop :=
  ∀ s e t, m s = .exit (.arity e) t → ¬P e

namespace Eval.Spared

/-- A step that returns in any session. -/
theorem returns (returned : ∀ s, ∃ a t, m s = .ok a t) : Spared P m := by
  intro s e t left
  obtain ⟨a, t', same⟩ := returned s
  rw [same] at left
  cases left

theorem pure (a : α) : Spared P (Pure.pure a : Eval α) := returns fun s => ⟨a, s, rfl⟩

theorem leave {flow : Flow} (other : ∀ e, flow = .arity e → ¬P e) :
    Spared P (Eval.leave flow : Eval α) := by
  intro s e t left
  cases left
  exact other e rfl

theorem bind {f : α → Eval β} (first : Spared P m) (next : ∀ a, Spared P (f a)) :
    Spared P (m >>= f) := by
  intro s e t left
  obtain ended | ⟨a, s', -, later⟩ := exit_of_bind left
  · exact first s e t ended
  · exact next a s' e t later

/-- What looks at how a step has ended may leave as that step has left. -/
theorem attempt {f : Except Flow α → Eval β} (tried : Spared P m)
    (returned : ∀ a, Spared P (f (.ok a)))
    (left : ∀ flow, (∀ e, flow = .arity e → ¬P e) → Spared P (f (.error flow))) :
    Spared P (Eval.attempt m >>= f) := by
  intro s e t exited
  cases ended : m s with
  | ok a s' =>
      rw [bind_of_ok _ (attempt_of_ok ended)] at exited
      exact returned a s' e t exited
  | exit flow s' =>
      rw [bind_of_ok _ (attempt_of_exit ended)] at exited
      have other : ∀ e, flow = .arity e → ¬P e := fun e same => tried s e s' (same ▸ ended)
      exact left flow other s' e t exited
  | _ =>
      change Eval.bind (Eval.attempt m) f s = _ at exited
      rw [Eval.bind, Eval.attempt, ended] at exited
      cases exited

theorem ensuring (body : Spared P m) (after : Session → Session) :
    Spared P (m.ensuring after) := by
  intro s e t left
  unfold Eval.ensuring at left
  cases ended : m s with
  | exit flow s' =>
      rw [ended] at left
      cases left
      exact body s e s' ended
  | _ =>
      rw [ended] at left
      cases left

theorem mapM {f : α → Eval β} (one : ∀ a, Spared P (f a)) (items : List α) :
    Spared P (items.mapM f) := by
  induction items with
  | nil => exact pure []
  | cons item items ih =>
      rw [List.mapM_cons]
      exact bind (one item) fun b => bind ih fun bs => pure (b :: bs)

end Eval.Spared

end Spared

/-! ## Interpreters that answer less -/

/-- Whether an arity error is one of a function of a name, or of one without a name, for a number
of arguments. -/
def ArityError.IsOf (e : ArityError) (name : Option String) (n : Nat) : Prop :=
  e.function = name ∧ e.received = n

instance (e : ArityError) (name : Option String) (n : Nat) : Decidable (e.IsOf name n) :=
  inferInstanceAs (Decidable (_ ∧ _))

namespace Interp

variable {I : Interp} {name : Option String} {n : Nat}

/-- The interpreter that does not come back from what is left by an arity error for a name and a
number of arguments. -/
def without (I : Interp) (name : Option String) (n : Nat) : Interp :=
  { I with
    call := fun request s =>
      match I.call request s with
      | .exit (.arity e) t =>
        if e.IsOf name n then .unfinished else .exit (.arity e) t
      | o => o }

/-- The interpreter that evaluates nothing and calls nothing. -/
def idle (I : Interp) : Interp := { I with call := fun _ => unfinished }

/-- No answer of an interpreter is left by an arity error for a name and a number of arguments. -/
def Spares (I : Interp) (name : Option String) (n : Nat) : Prop :=
  ∀ request, Spared (·.IsOf name n) (I.call request)

theorem spares_without (I : Interp) (name : Option String) (n : Nat) :
    (I.without name n).Spares name n := by
  intro request s e t left isOf
  unfold without at left
  dsimp only at left
  split at left
  next =>
      split at left
      next => cases left
      next differs =>
          cases left
          exact differs isOf
  next other => exact other e t left

instance agrees_without : (I.without name n).Agrees I where
  fuel_le := Nat.le_refl _
  isPrimitive_eq := rfl
  call request := ⟨fun s => by
    unfold without
    dsimp only
    split
    next same =>
        split
        next => exact .inl rfl
        next => exact .inr same
    next => exact .inr rfl⟩

end Interp

/-! ## Primitives -/

/-- The arguments with which functions are called at first: a command without any, and that of a
timer with a buffer. -/
inductive FirstArgs : List Value → Prop where
  | none : FirstArgs []
  | buffer (id : Nat) : FirstArgs [.buffer id]

/-- A primitive that is left by an arity error for the number of its first arguments would be left
by it as well if it could not evaluate or call anything, or else something that it has evaluated
or called was left by such an error. -/
class Primitive.RefusesItself (p : Primitive) : Prop where
  refuses : ∀ {I : Interp} {name : Option String} {args : List Value} {s t : Session}
    {e : ArityError}, FirstArgs args → I.Spares name args.length →
      s.functions.contains "nil" = false → p I args s = .exit (.arity e) t →
        e.IsOf name args.length → p I.idle args s = .exit (.arity e) t

namespace Primitive.RefusesItself

variable {p : Primitive}

/-- A primitive that asks nothing of the interpreter. -/
theorem same (none : ∀ I, p I.idle [] = p I [])
    (one : ∀ I id, p I.idle [.buffer id] = p I [.buffer id]) : RefusesItself p where
  refuses first _ _ left _ := by
    cases first with
    | none => rwa [none]
    | buffer id => rwa [one]

/-- A primitive whose first calls come down to what does not ask the interpreter. -/
theorem settled (m : Eval Value) (m' : Nat → Eval Value) (none : ∀ I, p I [] = m)
    (one : ∀ I id, p I [.buffer id] = m' id) : RefusesItself p :=
  same (fun I => (none _).trans (none I).symm) fun I id => (one _ id).trans (one I id).symm

/-- A primitive that refuses to be called without arguments, and called with a buffer is never
left by an arity error of its own for one argument. -/
theorem calls {own : String} {least : Nat} {most : Option Nat}
    (none : ∀ I, p I [] = wrongArity own least most 0)
    (one : ∀ {I : Interp} {name : Option String} {id : Nat} {s t : Session} {e : ArityError},
      I.Spares name 1 → s.functions.contains "nil" = false →
        p I [.buffer id] s = .exit (.arity e) t → ¬e.IsOf name 1) :
    RefusesItself p where
  refuses first spares plain left isOf := by
    cases first with
    | none => rwa [none] at left ⊢
    | buffer id => exact absurd isOf (one spares plain left)

end Primitive.RefusesItself

section Calling

open Primitives Primitive.RefusesItself

variable {I : Interp} {name : Option String} {n : Nat} {v : Value} {argument : Option Value}
  {s t : Session} {e : ArityError}

instance : Primitive.RefusesItself funcall := calls (fun _ => rfl) fun spares _ => spares _ _ _ _

instance : Primitive.RefusesItself applyList := calls (fun _ => rfl) fun spares _ => spares _ _ _ _

instance : Primitive.RefusesItself Primitives.evalForm :=
  calls (fun _ => rfl) fun spares _ => spares _ _ _ _

instance : Primitive.RefusesItself funcallInteractively :=
  calls (fun _ => rfl) fun spares _ => spares _ _ _ _

instance : Primitive.RefusesItself callFn := calls (fun _ => rfl) fun spares _ => spares _ _ _ _

/-- A buffer is expanded only if there is an expander for the empty list, which is what a buffer
has for a head. -/
theorem expandOnce_buffer (plain : s.functions.contains "nil" = false) (I : Interp) (id : Nat) :
    expandOnce I (.buffer id) s = .ok none s := by
  show (if s.functions.contains "nil" then _ else return none : Eval (Option Value)) s = _
  rw [plain]
  rfl

instance : Primitive.RefusesItself macroexpand1 :=
  calls (fun _ => rfl) fun {I _ id s t e} _ plain left => by
    have expanded : macroexpand1 I [.buffer id] s = .ok (.buffer id) s :=
      bind_of_ok _ (expandOnce_buffer plain I id)
    rw [expanded] at left
    cases left

instance : Primitive.RefusesItself macroexpand :=
  calls (fun _ => rfl) fun {I _ id s t e} _ plain left => by
    have expanded (fuel : Nat) : expandAll I (fuel + 1) (.buffer id) s = .ok (.buffer id) s :=
      bind_of_ok _ (expandOnce_buffer plain I id)
    have called : macroexpand I [.buffer id] s = expandAll I I.fuel (.buffer id) s := rfl
    rw [called] at left
    cases fuel : I.fuel with
    | zero =>
        rw [fuel] at left
        cases left
    | succ fuel' =>
        rw [fuel, expanded] at left
        cases left

theorem spared_callWithArgument (spares : I.Spares name n) :
    Spared (·.IsOf name n) (callWithArgument I v argument) := by
  unfold callWithArgument
  cases argument with
  | some w => exact spares _
  | none =>
      refine .attempt (spares _) (fun a => .pure a) fun flow other => ?_
      cases flow with
      | wrongType => exact spares _
      | _ => exact .leave other

/-- The arity errors that leave no answer of an interpreter leave no command that it runs. -/
theorem spared_invokeCommand (spares : I.Spares name n) :
    Spared (·.IsOf name n) (invokeCommand I v argument) := by
  have noted : Spared (·.IsOf name n) (noteCommand v) := by
    unfold noteCommand
    split
    · exact .returns fun _ => ⟨_, _, rfl⟩
    · exact .pure ()
  refine .bind noted fun _ => .ensuring ?_ _
  refine .attempt (spares _) (fun a => .pure a) fun flow other => ?_
  refine .bind (.returns fun _ => ⟨_, _, rfl⟩) fun t => ?_
  split
  · exact spared_callWithArgument spares
  · exact .leave other

instance : Primitive.RefusesItself commandExecute :=
  calls (fun _ => rfl) fun {I name id s t e} spares _ left => by
    have called : commandExecute I [.buffer id] s = (currentArgument? >>= fun argument =>
      invokeCommand I (.buffer id) argument) s := rfl
    have asked : Spared (·.IsOf name 1) currentArgument? :=
      .returns fun _ => ⟨_, _, rfl⟩
    exact asked.bind (fun _ => spared_invokeCommand spares) _ _ _ (called.symm.trans left)

end Calling

/-! ## The tables -/

/-- Primitives that refuse by themselves. -/
def AllRefuse (table : List (String × Primitive)) : Prop := ∀ e ∈ table, e.2.RefusesItself

namespace AllRefuse

variable {name : String} {p : Primitive} {rest : List (String × Primitive)}

theorem nil : AllRefuse [] := List.forall_mem_nil _

theorem cons [first : p.RefusesItself] (others : AllRefuse rest) : AllRefuse ((name, p) :: rest) :=
  List.forall_mem_cons.mpr ⟨first, others⟩

theorem same (none : ∀ I, p I.idle [] = p I [])
    (one : ∀ I id, p I.idle [.buffer id] = p I [.buffer id]) (others : AllRefuse rest) :
    AllRefuse ((name, p) :: rest) :=
  List.forall_mem_cons.mpr ⟨.same none one, others⟩

theorem append {front back : List (String × Primitive)} (first : AllRefuse front)
    (second : AllRefuse back) : AllRefuse (front ++ back) :=
  List.forall_mem_append.mpr ⟨first, second⟩

end AllRefuse

section Tables

open Primitives AllRefuse Primitive.RefusesItself

instance : Primitive.RefusesItself runHooks :=
  settled (return .nil) (fun id => wrongType "symbolp" (.buffer id)) (fun _ => rfl) fun _ _ => rfl

instance (name : String) (stop : Value → Bool) (answer : Option Value → Value) :
    Primitive.RefusesItself (runWith name stop answer) :=
  settled (wrongArity name 1 none 0) (fun id => wrongType "symbolp" (.buffer id))
    (fun _ => rfl) fun _ _ => rfl

instance : Primitive.RefusesItself load :=
  settled (wrongArity "load" 1 (some 5) 0) (fun id => wrongType "stringp" (.buffer id))
    (fun _ => rfl) fun _ _ => rfl

instance : Primitive.RefusesItself Primitives.require :=
  settled (wrongArity "require" 1 (some 3) 0) (fun id => wrongType "symbolp" (.buffer id))
    (fun _ => rfl) fun _ _ => rfl

instance : Primitive.RefusesItself callInteractively :=
  settled (wrongArity "call-interactively" 1 (some 3) 0)
    (fun id => wrongType "commandp" (.buffer id)) (fun _ => rfl) fun _ _ => rfl

theorem allRefuse_primitives : AllRefuse primitives := by
  unfold primitives arithmetic lists sequences symbols strings higherOrder reports times hooks
    inert editing motion buffers keymaps windows timers searches files loading grid commands modes
  repeat refine append ?_ ?_
  all_goals
    repeat first
      | refine cons ?_
      | refine AllRefuse.same (fun _ => rfl) (fun _ _ => rfl) ?_
    exact nil

theorem refusesItself_of_primitive? {name : String} {p : Primitive}
    (found : primitive? name = some p) : p.RefusesItself :=
  allRefuse_primitives _ (mem_of_lookup found)

end Tables

/-! ## What a call starts -/

/-- Calling a value starts a function of the program or a primitive.  Names are followed, and a
list that is a function is made one first. -/
inductive Session.Starts : Session → Value → Value → Session → Prop where
  | closure (s : Session) (ref : Nat) : Starts s (.closure ref) (.closure ref) s
  | primitive (s : Session) (name : String) : Starts s (.subr name) (.subr name) s
  | named {s s' : Session} {v w f : Value} {name : String} : v = .symbol name ∨ v = .keyword name →
      s.function? .top name = some w → Starts s w f s' → Starts s v f s'
  | lambda {s s' t : Session} {ref : Nat} {w f : Value} :
      (s.store.car (.cons ref)).isNamed "lambda" = true →
        makeClosure (s.store.cdr (.cons ref)) Store.rootFrame none s = .ok w s' →
          Starts s' w f t → Starts s (.cons ref) f t

section Starting

variable {v f : Value} {args : List Value} {s s' t : Session} {e : ArityError} {level : Nat}

theorem Session.function?_ofLevel (s : Session) (level : Nat) (name : String) :
    s.function? (.ofLevel level) name = s.function? .top name := by
  have := agrees_ofLevel (Nat.zero_le level)
  have := agrees_ofLevel (Nat.zero_le Interp.topLevel)
  rw [Session.function?_eq (I := .ofLevel 0)]
  exact (Session.function?_eq (I := .ofLevel 0) (J := .ofLevel Interp.topLevel) s name).symm

theorem spared_symbolName {P : ArityError → Prop} (v : Value) : Spared P (symbolName v) := by
  unfold symbolName
  split
  · exact .pure _
  · refine .leave fun e same => ?_
    cases same

theorem spared_properList {P : ArityError → Prop} (v : Value) : Spared P (properList v) := by
  intro s e t left
  unfold properList at left
  split at left <;> cases left

/-- A list that is no function is not refused for a number of arguments. -/
theorem spared_makeClosure (spec : Value) (frame : Nat) (name : Option String)
    {P : ArityError → Prop} : Spared P (makeClosure spec frame name) := by
  have read (v : Value) : Spared P (parameters v) :=
    .bind (spared_properList v) fun items => .bind (.mapM spared_symbolName items) fun _ => .pure _
  -- what is left to do with the parts of the list returns in any case
  refine .bind ?_ fun c => .bind (.returns fun _ => ⟨_, _, rfl⟩) fun _ => .pure _
  unfold closureOf
  refine .bind (.returns fun _ => ⟨_, _, rfl⟩) fun params => .bind (read params) fun params => ?_
  refine .bind (.returns fun _ => ⟨_, _, rfl⟩) fun body =>
    .bind (spared_properList body) fun body => ?_
  split
  exact .returns fun _ => ⟨_, _, rfl⟩

/-- A name that is left by an arity error when it is applied stands for a function that is. -/
theorem exists_function?_of_exit {I : Interp} {name : String}
    (isName : v = .symbol name ∨ v = .keyword name)
    (left : applyValue I v args s = .exit (.arity e) t) :
    ∃ w, s.function? I name = some w ∧ I.apply w args s = .exit (.arity e) t := by
  rcases isName with rfl | rfl
  all_goals
    simp only [applyValue] at left
    rw [bind_of_ok (m := session) _ rfl] at left
    cases found : s.function? I name with
    | none =>
        rw [found] at left
        cases left
    | some w =>
        rw [found] at left
        refine ⟨w, rfl, ?_⟩
        cases w with
        | expander => cases left
        | _ => exact left

/-- A call that is left by an arity error has started something that was left by it. -/
theorem exists_starts (left : (Interp.ofLevel level).apply v args s = .exit (.arity e) t) :
    ∃ f s' level, s.Starts v f s' ∧ applyValue (.ofLevel level) f args s' = .exit (.arity e) t := by
  induction level generalizing v s with
  | zero => cases left
  | succ level ih =>
      change applyValue (.ofLevel level) v args s = _ at left
      have byName {name : String} (isName : v = .symbol name ∨ v = .keyword name) :
          ∃ f s' level, s.Starts v f s' ∧
            applyValue (.ofLevel level) f args s' = .exit (.arity e) t := by
        obtain ⟨w, found, called⟩ := exists_function?_of_exit isName left
        obtain ⟨f, s', level', starts, ended⟩ := ih called
        rw [s.function?_ofLevel] at found
        exact ⟨f, s', level', .named isName found starts, ended⟩
      cases v with
      | closure ref => exact ⟨_, s, level, .closure s ref, left⟩
      | subr name => exact ⟨_, s, level, .primitive s name, left⟩
      | symbol name => exact byName (.inl rfl)
      | keyword name => exact byName (.inr rfl)
      | cons ref =>
          change (if (s.store.car (.cons ref)).isNamed "lambda" then _ else _ : Eval Value) s = _
            at left
          split at left
          next isLambda =>
              change (makeClosure (s.store.cdr (.cons ref)) Store.rootFrame none >>= _) s = _ at left
              obtain unmade | ⟨w, s', made, later⟩ := exit_of_bind left
              · exact (spared_makeClosure (P := fun _ => True) _ _ _ _ _ _ unmade trivial).elim
              · obtain ⟨f, t', level, starts, ended⟩ := ih later
                exact ⟨f, t', level, .lambda isLambda made starts, ended⟩
          next => cases left
      | _ => cases left

theorem Session.Starts.isFunction (starts : s.Starts v f s') :
    (∃ ref, f = .closure ref) ∨ ∃ name, f = .subr name := by
  induction starts with
  | closure s ref => exact .inl ⟨ref, rfl⟩
  | primitive s name => exact .inr ⟨name, rfl⟩
  | named _ _ _ ih => exact ih
  | lambda _ _ _ ih => exact ih

end Starting

/-! ## Functions of the program -/

section Closures

variable {I : Interp} {name : Option String} {n : Nat} {c : Closure} {args : List Value}
  {s t : Session} {e : ArityError}

theorem spared_evalBody (spares : I.Spares name n) (frame : Nat) (forms : List Value) :
    Spared (·.IsOf name n) (I.evalBody frame forms) := by
  fun_induction I.evalBody frame forms with
  | case1 => exact .pure _
  | case2 form => exact spares _
  | case3 form rest _ ih => exact .bind (spares _) fun _ => ih

theorem spared_withDynamic {P : ArityError → Prop} {m : Eval Value} (body : Spared P m)
    (bindings : List (String × Value)) : Spared P (withDynamic bindings m) := by
  cases bindings with
  | nil => exact body
  | cons => exact fun s => body.ensuring _ _

/-- A parameter list does not take so many arguments. -/
def Parameters.Excludes (p : Parameters) (n : Nat) : Prop := n < p.least ∨ p.most?.any (· < n)

/-- A function of the program that is left by an arity error of its name for the number of its
arguments has not been started, unless something in its body was left by such an error. -/
theorem excludes_of_exit (spares : I.Spares name args.length)
    (left : applyClosure I c args s = .exit (.arity e) t) (isOf : e.IsOf name args.length) :
    c.params.Excludes args.length ∧ e = ⟨c.name, c.params.least, c.params.most?, args.length⟩ ∧
      t = s := by
  unfold applyClosure at left
  dsimp only at left
  split at left
  next excluded =>
      cases left
      exact ⟨excluded, rfl, rfl⟩
  next =>
      have started (bindings : List (String × Value)) : Spared (·.IsOf name args.length) (do
          let specials ← get (·.specials)
          let parts := bindings.partition fun b => specials.contains b.1
          let frame ← alloc (·.childFrameWith (c.frame.getD Store.rootFrame) parts.2)
          withDynamic parts.1 (I.evalBody frame c.body)) :=
        .bind (.returns fun _ => ⟨_, _, rfl⟩) fun specials =>
          .bind (.returns fun _ => ⟨_, _, rfl⟩) fun frame =>
            spared_withDynamic (spared_evalBody spares frame c.body) _
      refine absurd isOf ?_
      cases rest : c.params.rest with
      | none =>
          rw [rest] at left
          exact started _ _ _ _ left
      | some name =>
          rw [rest] at left
          exact Spared.bind (.returns fun s => ⟨_, _, rfl⟩) (fun _ => started _) _ _ _ left

end Closures

/-! ## Who has refused -/

/-- Nothing that is evaluated or called by what the call of a value starts is left by an arity
error with the name that the value reports after the call and with the number of arguments of the
call.  If a primitive is started, then there is no function of the empty list, with which it might
expand a buffer. -/
def Session.CallsQuietly (s : Session) (v : Value) (args : List Value) : Prop :=
  ∀ (level : Nat) (flow : Flow) (t s' : Session) (f : Value),
    (Interp.ofLevel level).apply v args s = .exit flow t → s.Starts v f s' →
      (∃ level, applyValue ((Interp.ofLevel level).without (t.reportedName? .top v) args.length)
        f args s' ≠ .unfinished) ∧
      ∀ name, f = .subr name → s'.functions.contains "nil" = false

/-- The call of a value was refused by what it was to start. -/
inductive Session.Refused (s : Session) (v : Value) (args : List Value) (e : ArityError)
    (t : Session) : Prop where
  /-- A function of the program does not take so many arguments, and the session is that in which
  it was to be started. -/
  | closure {ref : Nat} {c : Closure} : s.Starts v (.closure ref) t →
      (t.store.closures[ref]?).getD default = c → c.params.Excludes args.length →
        e = ⟨c.name, c.params.least, c.params.most?, args.length⟩ → Refused s v args e t
  /-- A primitive is left like that if nothing can be evaluated or called. -/
  | primitive (name : String) (s' : Session) (level : Nat) : s.Starts v (.subr name) s' →
      applyValue (Interp.ofLevel level).idle (.subr name) args s' = .exit (.arity e) t →
        Refused s v args e t

section Refused

variable {v : Value} {args : List Value} {s t : Session} {e : ArityError} {flow : Flow}
  {level : Nat}

theorem Session.refuses_eq_some (taken : t.refuses .top v args.length flow = some e) :
    flow = .arity e ∧ e.IsOf (t.reportedName? .top v) args.length := by
  unfold refuses at taken
  split at taken
  next e' =>
      split at taken
      next same =>
          cases taken
          exact ⟨rfl, same.2, same.1⟩
      next => cases taken
  next => cases taken

/-- A quiet call that is taken for refused has been refused by the function itself. -/
theorem refused_of_refuses (first : FirstArgs args) (quiet : s.CallsQuietly v args)
    (left : (Interp.ofLevel level).apply v args s = .exit flow t)
    (taken : t.refuses .top v args.length flow = some e) :
    flow = .arity e ∧ s.Refused v args e t := by
  obtain ⟨rfl, isOf⟩ := Session.refuses_eq_some taken
  refine ⟨rfl, ?_⟩
  obtain ⟨f, s', least, starts, ended⟩ := exists_starts left
  obtain ⟨⟨least', finished⟩, plain⟩ := quiet level _ t s' f left starts
  -- with enough levels the run that stops at such errors ends like the call
  have stopped : applyValue ((Interp.ofLevel least').without (t.reportedName? .top v) args.length)
      f args s' = .exit (.arity e) t := by
    have := agrees_ofLevel (Nat.le_max_left least least')
    have := agrees_ofLevel (Nat.le_max_right least least')
    have ends : Agrees (applyValue (.ofLevel least) f args)
      (applyValue (.ofLevel (max least least')) f args) := inferInstance
    have more : Agrees (applyValue (.ofLevel least') f args)
      (applyValue (.ofLevel (max least least')) f args) := inferInstance
    have fewer : Agrees
        (applyValue ((Interp.ofLevel least').without (t.reportedName? .top v) args.length) f args)
        (applyValue (.ofLevel least') f args) := agrees_applyValue args f
    rw [← ((fewer.trans more).agrees s').resolve_left finished, ← ended]
    exact (ends.agrees s').resolve_left (ended ▸ nofun)
  have spares := (Interp.ofLevel least').spares_without (t.reportedName? .top v) args.length
  rcases starts.isFunction with ⟨ref, rfl⟩ | ⟨name, rfl⟩
  · obtain ⟨excluded, own, rfl⟩ := excludes_of_exit spares stopped isOf
    exact .closure starts rfl excluded own
  · refine .primitive name s' least' starts ?_
    have called : callPrimitive ((Interp.ofLevel least').without _ _) name args s' =
      .exit (.arity e) t := stopped
    show callPrimitive _ name args s' = _
    unfold callPrimitive at called ⊢
    cases found : primitive? name with
    | none => 
        rw [found] at called
        cases called
    | some p =>
        rw [found] at called
        have itself := refusesItself_of_primitive? found
        exact itself.refuses (I := (Interp.ofLevel least').without _ _) first spares
          (plain name rfl) called isOf

theorem Session.refuses_ofLevel (t : Session) (level : Nat) (v : Value) (n : Nat) (flow : Flow) :
    t.refuses (.ofLevel level) v n flow = t.refuses .top v n flow := by
  unfold refuses reportedName? resolve?
  cases v with
  | symbol name => simp only [t.function?_ofLevel]
  | _ => rfl

end Refused

/-! ## Calling again -/

section Again

variable {v : Value} {s s₁ : Session} {level : Nat}

/-- A command is called once, unless it has refused to be called without an argument. -/
theorem callCommand_once (quiet : s.CallsQuietly v []) (argument : Option Value) :
    callCommand (.ofLevel level) v argument s = (Interp.ofLevel level).apply v [] s ∨
      ∃ e t, (Interp.ofLevel level).apply v [] s = .exit (.arity e) t ∧ s.Refused v [] e t ∧
        callCommand (.ofLevel level) v argument s =
          callWithArgument (.ofLevel level) v argument t := by
  cases called : (Interp.ofLevel level).apply v [] s with
  | ok a t => exact .inl ((bind_of_ok _ (attempt_of_ok called)).trans rfl)
  | exit flow t =>
      have again : callCommand (.ofLevel level) v argument s =
          (if (t.refuses (.ofLevel level) v 0 flow).any (·.minimum == 1) then
            callWithArgument (.ofLevel level) v argument
          else leave flow : Eval Value) t :=
        (bind_of_ok _ (attempt_of_exit called)).trans rfl
      rw [again, t.refuses_ofLevel]
      cases taken : t.refuses .top v 0 flow with
      | none => exact .inl rfl
      | some e =>
          obtain ⟨rfl, refused⟩ := refused_of_refuses .none quiet called taken
          rw [Option.any_some]
          split
          · exact .inr ⟨e, t, rfl, refused, rfl⟩
          · exact .inl rfl
  | _ =>
      left
      show Eval.bind (attempt ((Interp.ofLevel level).apply v [])) _ s = _
      rw [Eval.bind, attempt, called]

/-- So is the function of a timer without arguments, unless it has refused the buffer. -/
theorem callTimer_once {timer : Timer} (none : timer.args.isEmpty = true) {id : Nat}
    (current : currentId s = .ok id s₁) (quiet : s₁.CallsQuietly timer.callback [.buffer id]) :
    callTimer timer s = funcall timer.callback [.buffer id] s₁ ∨
      ∃ e t, funcall timer.callback [.buffer id] s₁ = .exit (.arity e) t ∧
        s₁.Refused timer.callback [.buffer id] e t ∧
          callTimer timer s = funcall timer.callback [] t := by
  unfold callTimer
  rw [none, if_pos rfl, bind_of_ok _ current]
  cases called : funcall timer.callback [.buffer id] s₁ with
  | ok a t => exact .inl ((bind_of_ok _ (attempt_of_ok called)).trans rfl)
  | exit flow t =>
      rw [bind_of_ok _ (attempt_of_exit called)]
      dsimp only
      rw [bind_of_ok (m := session) _ rfl]
      cases taken : t.refuses .top timer.callback 1 flow with
      | none => exact .inl rfl
      | some e =>
          obtain ⟨rfl, refused⟩ := refused_of_refuses (.buffer id) quiet called taken
          exact .inr ⟨e, t, rfl, refused, rfl⟩
  | _ =>
      left
      show Eval.bind (attempt (funcall timer.callback [.buffer id])) _ s₁ = _
      rw [Eval.bind, attempt, called]

/-- What is noted after a command, however it has ended. -/
def noteLast (s : Session) : Session :=
  s.setGlobal "last-command" ((s.globals.get? "this-command").getD .nil)

/-- Let nothing that a function evaluates or calls, when it is called at first, be left by an arity
error with the name that the function reports afterwards and with the number of arguments of that
call.  If it is then taken to have refused that number, it has refused it itself: the parameter
list of a function of the program excludes it, and the function has not been started, while a
primitive would be left likewise if it could neither evaluate nor call anything.  So a command
without an argument, and the function of a timer with the buffer, are called once or have refused
that by themselves. -/
theorem called_once_unless_refused (level : Nat) (v : Value) (s : Session) :
    (∀ (args : List Value) (t : Session) (flow : Flow) (e : ArityError), FirstArgs args →
      s.CallsQuietly v args → (Interp.ofLevel level).apply v args s = .exit flow t →
        t.refuses .top v args.length flow = some e → s.Refused v args e t) ∧
    (∀ (argument : Option Value) (s₁ : Session),
      noteCommand v s = .ok () s₁ → s₁.CallsQuietly v [] →
        invokeCommand (.ofLevel level) v argument s =
            ((Interp.ofLevel level).apply v []).ensuring noteLast s₁ ∨
          ∃ e t, (Interp.ofLevel level).apply v [] s₁ = .exit (.arity e) t ∧
            s₁.Refused v [] e t ∧ invokeCommand (.ofLevel level) v argument s =
              (callWithArgument (.ofLevel level) v argument).ensuring noteLast t) ∧
    ∀ (timer : Timer) (s₁ : Session) (id : Nat), timer.callback = v →
      (timer.args.isEmpty = false → callTimer timer s = funcall v timer.args s) ∧
      (timer.args.isEmpty = true → currentId s = .ok id s₁ → s₁.CallsQuietly v [.buffer id] →
        callTimer timer s = funcall v [.buffer id] s₁ ∨
          ∃ e t, funcall v [.buffer id] s₁ = .exit (.arity e) t ∧
            s₁.Refused v [.buffer id] e t ∧ callTimer timer s = funcall v [] t) := by
  refine ⟨?_, ?_, ?_⟩
  · intro args t flow e first quiet left taken
    exact (refused_of_refuses first quiet left taken).2
  · intro argument s₁ noted quiet
    have invoked : invokeCommand (.ofLevel level) v argument s =
        (callCommand (.ofLevel level) v argument).ensuring noteLast s₁ := bind_of_ok _ noted
    rw [invoked]
    rcases callCommand_once quiet argument with once | ⟨e, t, left, refused, again⟩
    · exact .inl (ensuring_of_eq _ once)
    · exact .inr ⟨e, t, left, refused, ensuring_of_eq _ again⟩
  · rintro timer s₁ id rfl
    refine ⟨fun given => ?_, fun none current quiet => callTimer_once none current quiet⟩
    unfold callTimer
    rw [given, if_neg Bool.false_ne_true]

end Again

/-- A session with a function that needs an argument and returns it. -/
def needsOne : Session where
  store := {
    closures := #[{ params := { required := ["n"] }, body := [.symbol "n"], frame := none,
                    doc := none, name := none }] }

theorem callsQuietly_needsOne : needsOne.CallsQuietly (.closure 0) [] := by
  intro level flow t s' f _ starts
  cases starts with
  | closure =>
      refine ⟨⟨0, fun never => ?_⟩, fun e same => ?_⟩
      · cases never
      · cases same
  | named isName => rcases isName with same | same <;> cases same

/-- A command that needs an argument has refused to be called without one, and is called again
with one. -/
theorem called_again_needsOne :
    ∃ e t, (Interp.ofLevel 3).apply (.closure 0) [] needsOne = .exit (.arity e) t ∧
      needsOne.Refused (.closure 0) [] e t ∧
        invokeCommand (.ofLevel 3) (.closure 0) none needsOne =
          (callWithArgument (.ofLevel 3) (.closure 0) none).ensuring noteLast t := by
  rcases (called_once_unless_refused 3 (.closure 0) needsOne).2.1 none needsOne rfl
    callsQuietly_needsOne with once | again
  · have returned : ∃ t, invokeCommand (.ofLevel 3) (.closure 0) none needsOne =
        .ok (.int 1) t := ⟨_, rfl⟩
    obtain ⟨t, returned⟩ := returned
    rw [returned] at once
    cases once
  · exact again

/-- A function that takes an argument or none, notes each of its calls in a list and then calls
another one without the argument which that one needs.  Neither of them has a name. -/
def unnamed : Closure where
  params := { optional := ["n"] }
  body := [.cons 2, .cons 7]
  frame := none
  doc := none
  name := none

/-- A session with that function and an empty list of its calls. -/
def unnamedCalls : Session where
  store := {
    pairs := #[⟨.symbol "calls", .nil⟩, ⟨.t, .cons 0⟩, ⟨.symbol "push", .cons 1⟩,
      ⟨.symbol "x", .nil⟩, ⟨.symbol "x", .nil⟩, ⟨.cons 3, .cons 4⟩, ⟨.symbol "lambda", .cons 5⟩,
      ⟨.cons 6, .nil⟩]
    closures := #[unnamed] }
  globals := .ofList [("calls", .nil)]

/-- The number of calls that were noted before a call was left. -/
def callsNoted : Outcome Value → Option Nat
  | .exit _ t => (t.globals.get? "calls").bind fun v => (t.store.list? v).map List.length
  | _ => none

/-- The function does not exclude to be called without arguments and has been started before it is
left, but it is called again, because that error has no name either. -/
theorem not_called_once_unnamed :
    ¬unnamed.params.Excludes 0 ∧
      callsNoted ((Interp.ofLevel 9).apply (.closure 0) [] unnamedCalls) = some 1 ∧
        callsNoted (invokeCommand (.ofLevel 9) (.closure 0) none unnamedCalls) = some 2 := by
  refine ⟨?_, ?_, ?_⟩
  · unfold Parameters.Excludes
    decide
  · decide +kernel
  · decide +kernel

end EditorLisp
