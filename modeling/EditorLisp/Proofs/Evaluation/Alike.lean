import EditorLisp.Proofs.Levels

/-!
# Steps that correspond

Two steps correspond if they end in the same way and in the same session, with values that are
related where they return.  What is put together from corresponding steps corresponds.
-/

namespace EditorLisp

/-- Outcomes of two steps that both return, related values in the same session, or that fail in the
same way. -/
inductive Outcome.Alike {α β : Type} (R : α → β → Prop) : Outcome α → Outcome β → Prop
  | ok {a : α} {b : β} (s : Session) : R a b → Alike R (.ok a s) (.ok b s)
  | exit (flow : Flow) (s : Session) : Alike R (.exit flow s) (.exit flow s)
  | crashed (s : Session) : Alike R (.crashed s) (.crashed s)
  | unfinished : Alike R .unfinished .unfinished

/-- Outcomes of two steps that fail in the same way. -/
abbrev Outcome.FailsLike {α β : Type} : Outcome α → Outcome β → Prop := Alike fun _ _ => False

/-- An outcome with a change of the session, whether it returned or left. -/
def Outcome.after {α : Type} (f : Session → Session) : Outcome α → Outcome α
  | .ok a s => .ok a (f s)
  | .exit flow s => .exit flow (f s)
  | o => o

namespace Outcome.Alike

variable {α α' β β' : Type} {R : α → β → Prop} {R' : α' → β' → Prop} {o : Outcome α}
  {o' : Outcome β} {o'' : Outcome β'} {s : Session}

theorem mono {S : α → β → Prop} (alike : Alike R o o') (weaker : ∀ a b, R a b → S a b) :
    Alike S o o' := by
  cases alike with
  | ok s related => exact .ok s (weaker _ _ related)
  | exit flow s => exact .exit flow s
  | crashed s => exact .crashed s
  | unfinished => exact .unfinished

theorem refl (o : Outcome α) : Alike Eq o o := by
  cases o with
  | ok a s => exact .ok s rfl
  | exit flow s => exact .exit flow s
  | crashed s => exact .crashed s
  | unfinished => exact .unfinished

/-- Corresponding steps may be followed by corresponding steps. -/
theorem bind {m : Eval α} {m' : Eval β} {f : α → Eval α'} {f' : β → Eval β'}
    (first : Alike R (m s) (m' s))
    (next : ∀ a b t, m s = .ok a t → R a b → Alike R' (f a t) (f' b t)) :
    Alike R' ((m >>= f) s) ((m' >>= f') s) := by
  show Alike R' (Eval.bind m f s) (Eval.bind m' f' s)
  unfold Eval.bind
  generalize ended : m s = o at first
  generalize m' s = o' at first
  cases first with
  | ok t related => exact next _ _ t ended related
  | exit flow t => exact .exit flow t
  | crashed t => exact .crashed t
  | unfinished => exact .unfinished

/-- What is done with an answer need not be done on the other side. -/
theorem bind_pure {m : Eval α} {g : α → α'} {S : α' → β → Prop} (alike : Alike R (m s) o')
    (weaker : ∀ a b, R a b → S (g a) b) : Alike S ((m >>= fun a => Pure.pure (g a)) s) o' := by
  show Alike S (Eval.bind m _ s) o'
  unfold Eval.bind
  generalize m s = o at alike
  cases alike with
  | ok t related => exact .ok t (weaker _ _ related)
  | exit flow t => exact .exit flow t
  | crashed t => exact .crashed t
  | unfinished => exact .unfinished

end Outcome.Alike

/-- What fails is not made up for by later steps. -/
theorem Outcome.FailsLike.bind {α α' β : Type} {m : Eval α} {s : Session} {o : Outcome β}
    (fails : (m s).FailsLike o) (f : α → Eval α') : ((m >>= f) s).FailsLike o := by
  show (Eval.bind m f s).FailsLike o
  unfold Eval.bind
  generalize m s = o' at fails
  cases fails with
  | ok _ never => exact never.elim
  | exit flow t => exact .exit flow t
  | crashed t => exact .crashed t
  | unfinished => exact .unfinished

theorem Outcome.FailsLike.eq {α : Type} {o o' : Outcome α} (fails : o.FailsLike o') : o = o' := by
  cases fails with
  | ok _ never => exact never.elim
  | _ => rfl

theorem Eval.bind_of_unfinished {α β : Type} {m : Eval α} {s : Session} (f : α → Eval β)
    (never : m s = .unfinished) : (m >>= f) s = .unfinished := by
  show Eval.bind m f s = .unfinished
  rw [Eval.bind, never]

theorem Eval.ensuring_eq {α : Type} (m : Eval α) (after : Session → Session) (s : Session) :
    m.ensuring after s = (m s).after after := by
  unfold ensuring
  cases m s <;> rfl

/-! ## Inside of a form -/

namespace Session

/-- A session in which a form is being evaluated that contains other ones. -/
def inside (s : Session) : Session := { s with depth := s.depth + 1 }

/-- A session after the evaluation of such a form. -/
def outside (s : Session) : Session := { s with depth := s.depth - 1 }

end Session

/-! ## Evaluations that were carried out -/

/-- What a step returned, and the session then. -/
def Outcome.returned? {α : Type} : Outcome α → Option (α × Session)
  | .ok a t => some (a, t)
  | _ => none

/-- An evaluation that was carried out has ended. -/
theorem Interp.exists_ends {form : Value} {frame : Nat} {s : Session} {β : Type} {b : β}
    (level : Nat) (f : Value × Session → Option β)
    (returned : ((Interp.ofLevel level).eval form frame s).returned?.bind f = some b) :
    ∃ v t, Ends form frame s (.ok v t) ∧ f (v, t) = some b := by
  cases ended : (Interp.ofLevel level).eval form frame s with
  | ok v t =>
      rw [ended] at returned
      exact ⟨v, t, .of_eq ended nofun, returned⟩
  | _ =>
      rw [ended] at returned
      cases returned

end EditorLisp
