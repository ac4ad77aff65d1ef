import EditorLisp.Program
import EditorLisp.Proofs.Evaluation.Call
import EditorLisp.Proofs.Levels

/-!
# Calls by another name

An alias is a name in the function cell of another name.  A call of it is evaluated like a
call of the other name.  For a function or a macro of the program both calls come down to the
same steps.  A primitive is called through its function value by the alias, one level deeper
than by its own name, which makes no difference if there are enough levels.  Names are
followed for so many steps only, and a special form is known by its own name alone.
-/

namespace EditorLisp

open Eval

/-! ## Following aliases -/

namespace Session

variable {s : Session} {I : Interp} {name other : String} {v : Value} {fuel fuel' : Nat}

theorem functionFrom_of_le (le : fuel ≤ fuel') (found : s.functionFrom I fuel name = some v) :
    s.functionFrom I fuel' name = some v := by
  induction fuel generalizing fuel' name with
  | zero => cases found
  | succ fuel ih =>
      obtain ⟨fuel', rfl⟩ := Nat.exists_eq_add_of_le' le
      unfold functionFrom at found ⊢
      split at found
      next next_ _ => exact ih (Nat.le_of_succ_le_succ le) found
      next => exact found
      next => exact found

/-- A session in which a name has been given a function. -/
def defining (s : Session) (name : String) (definition : Value) : Session :=
  { s with functions := s.functions.insert name definition }

/-- Names that stand for something do so without a name that stands for nothing. -/
theorem functionFrom_defining (new : s.functions.contains name = false)
    (noPrimitive : I.isPrimitive name = false) (definition : Value)
    (found : s.functionFrom I fuel other = some v) :
    (s.defining name definition).functionFrom I fuel other = some v := by
  induction fuel generalizing other with
  | zero => cases found
  | succ fuel ih =>
      have missing := (Table.get?_eq_none_iff ..).mpr new
      have elsewhere : name ≠ other := by
        rintro rfl
        unfold functionFrom at found
        rw [missing] at found
        simp only [noPrimitive] at found
        cases found
      have same : (s.defining name definition).functions.get? other = s.functions.get? other := by
        show (s.functions.insert name definition).get? other = _
        rw [Table.get?_insert, if_neg elsewhere]
      unfold functionFrom at found ⊢
      rw [same]
      split at found
      next => exact ih found
      next => exact found
      next => exact found

theorem contains_alias (cell : s.functions.get? name = some (.symbol other)) :
    s.functions.contains name = true := by
  rw [Table.contains_eq_isSome, cell]
  rfl

/-- A name without a definition that stands for something is that of a primitive. -/
theorem eq_subr_of_functionFrom (undefined : s.functions.contains name = false)
    (found : s.functionFrom I fuel name = some v) : v = .subr name ∧ I.isPrimitive name = true := by
  have missing := (Table.get?_eq_none_iff ..).mpr undefined
  cases fuel with
  | zero => cases found
  | succ fuel =>
      rw [functionFrom, missing] at found
      dsimp only at found
      split at found
      next primitive => exact ⟨(Option.some.inj found).symm, primitive⟩
      next => cases found

/-- An alias stands for what the other name stands for, if that is not too far. -/
theorem function?_alias (cell : s.functions.get? name = some (.symbol other))
    (found : s.functionFrom I (aliasLimit - 1) other = some v) :
    s.function? I name = some v ∧ s.function? I other = some v := by
  refine ⟨?_, functionFrom_of_le (Nat.sub_le ..) found⟩
  show s.functionFrom I (aliasLimit - 1 + 1) name = _
  rw [functionFrom, cell]
  exact found

end Session

/-! ## Calls of an alias -/

namespace Eval

variable {I : Interp} {s : Session} {name other : String} {v : Value} {frame : Nat}
  {forms : List Value}

variable (frame forms) in
/-- A function of the program is called alike by both names. -/
theorem evalNamed_alias (cell : s.functions.get? name = some (.symbol other))
    (found : s.functionFrom I (Session.aliasLimit - 1) other = some v)
    (defined : s.functions.contains other = true) :
    evalNamed I name forms frame s = evalNamed I other forms frame s := by
  obtain ⟨byName, byOther⟩ := Session.function?_alias cell found
  unfold evalNamed
  refine (bind_of_ok _ rfl).trans (Eq.trans ?_ (bind_of_ok _ rfl).symm)
  rw [if_pos (Session.contains_alias cell), if_pos defined, byName, byOther]
  cases v <;> rfl

/-- An alias of a primitive calls it through its function value. -/
theorem evalNamed_alias_primitive (cell : s.functions.get? name = some (.symbol other))
    (found : s.functionFrom I (Session.aliasLimit - 1) other = some (.subr other)) :
    evalNamed I name forms frame s =
      (I.evalArgs frame forms >>= fun args => I.apply (.subr other) args) s := by
  obtain ⟨byName, -⟩ := Session.function?_alias cell found
  unfold evalNamed
  refine (bind_of_ok _ rfl).trans ?_
  rw [if_pos (Session.contains_alias cell), byName]

variable (frame forms) in
/-- At some level, the alias of a primitive does what the primitive does. -/
theorem agrees_alias_primitive {p : Primitive} (found : primitive? other = some p) (level : Nat) :
    Agrees ((Interp.ofLevel level).evalArgs frame forms >>= p (.ofLevel level))
        ((Interp.ofLevel (level + 1)).evalArgs frame forms >>= fun args =>
          (Interp.ofLevel (level + 1)).apply (.subr other) args) ∧
      Agrees ((Interp.ofLevel level).evalArgs frame forms >>= fun args =>
          (Interp.ofLevel level).apply (.subr other) args)
        ((Interp.ofLevel level).evalArgs frame forms >>= p (.ofLevel level)) := by
  have := agrees_ofLevel (Nat.le_succ level)
  constructor
  · refine .after fun args => ?_
    rw [Interp.apply_subr found]
    exact .refl _
  · refine .after fun args => ?_
    cases level with
    | zero => exact .unfinished _
    | succ level =>
        have := agrees_ofLevel (Nat.le_succ level)
        rw [Interp.apply_subr found]
        exact agrees_of_primitive? _ _ found args

/-- The level matters for what a name stands for only where it is asked. -/
theorem functionFrom_ofLevel (s : Session) (level fuel : Nat) (name : String) :
    s.functionFrom (.ofLevel level) fuel name = s.functionFrom .top fuel name := by
  have lower := agrees_ofLevel (Nat.zero_le level)
  have upper := agrees_ofLevel (Nat.zero_le Interp.topLevel)
  rw [s.functionFrom_eq (I := .ofLevel 0) (J := .ofLevel level)]
  exact (s.functionFrom_eq (I := .ofLevel 0) (J := .ofLevel Interp.topLevel) fuel name).symm

variable (frame forms) in
/-- Calls by either name end alike, one of them perhaps a level later. -/
theorem agrees_evalNamed_alias (cell : s.functions.get? name = some (.symbol other))
    (found : s.functionFrom .top (Session.aliasLimit - 1) other = some v)
    (ordinary : s.functions.contains other = true ∨ specialForm? other = none) (level : Nat) :
    (evalNamed (.ofLevel level) other forms frame s).Agrees
        (evalNamed (.ofLevel (level + 1)) name forms frame s) ∧
      (evalNamed (.ofLevel level) name forms frame s).Agrees
        (evalNamed (.ofLevel level) other forms frame s) := by
  have resolved (level : Nat) := (functionFrom_ofLevel s level _ other).trans found
  cases defined : s.functions.contains other with
  | true =>
      have same (level : Nat) := evalNamed_alias frame forms cell (resolved level) defined
      have := agrees_ofLevel (Nat.le_succ level)
      rw [same, same]
      exact ⟨(agrees_evalNamed forms frame other).agrees s, .inr rfl⟩
  | false =>
      have noForm : specialForm? other = none := ordinary.resolve_left (by rw [defined]; nofun)
      obtain ⟨rfl, known⟩ := Session.eq_subr_of_functionFrom defined found
      obtain ⟨p, primitive⟩ := Option.isSome_iff_exists.mp known
      rw [evalNamed_alias_primitive cell (resolved _), evalNamed_alias_primitive cell (resolved _),
        evalNamed_primitive defined noForm primitive]
      obtain ⟨later, sooner⟩ := agrees_alias_primitive frame forms primitive level
      exact ⟨later.agrees s, sooner.agrees s⟩

/-- A call by one name and a call by another one end alike if what they call does. -/
theorem agrees_evalForm_named {I J : Interp} {call call' : Value}
    (byName : s.store.IsList call (.symbol name) forms)
    (byOther : s.store.IsList call' (.symbol other) forms)
    (alike : s.depth < s.config.maxDepth →
      (evalNamed I name forms frame { s with depth := s.depth + 1 }).Agrees
        (evalNamed J other forms frame { s with depth := s.depth + 1 })) :
    (evalForm I call frame s).Agrees (evalForm J call' frame s) := by
  by_cases room : s.depth < s.config.maxDepth
  · rw [evalForm_named room byName, evalForm_named room byOther]
    exact Agrees.agrees_ensuring (alike room) _
  · right
    unfold evalForm
    rw [if_pos (by omega), if_pos (by omega)]

/-- A call of an alias ends like a call of what it is an alias of. -/
theorem ends_alias {call call' : Value} {o : Outcome Value}
    (cell : s.functions.get? name = some (.symbol other))
    (found : s.functionFrom .top (Session.aliasLimit - 1) other = some v)
    (ordinary : s.functions.contains other = true ∨ specialForm? other = none)
    (byName : s.store.IsList call (.symbol name) forms)
    (byOther : s.store.IsList call' (.symbol other) forms) :
    Interp.Ends call frame s o ↔ Interp.Ends call' frame s o := by
  have alike (level : Nat) := agrees_evalNamed_alias (s := { s with depth := s.depth + 1 }) frame forms
    cell found ordinary level
  constructor
  · intro ends
    refine ends.of_agrees fun level => ⟨level, ?_⟩
    cases level with
    | zero => exact .inl rfl
    | succ level => exact agrees_evalForm_named byName byOther fun _ => (alike level).2
  · intro ends
    refine ends.of_agrees fun level => ⟨level + 1, ?_⟩
    cases level with
    | zero => exact .inl rfl
    | succ level => exact agrees_evalForm_named byOther byName fun _ => (alike level).1

end Eval

namespace Forms

variable {s : Session} {frame : Nat} {form : Value} {name other : String} {v : Value}

/-- The form `(defalias 'NAME 'OTHER)` as it stands in the store. -/
def IsDefalias (st : Store) (form : Value) (name other : String) : Prop :=
  ∃ place definition, st.IsList form (.symbol "defalias") [place, definition] ∧
    st.IsList place (.symbol "quote") [.symbol name] ∧
      st.IsList definition (.symbol "quote") [.symbol other]

theorem defineFunction_symbol (s : Session) (name other : String) :
    defineFunction name (.symbol other) s = .ok () (s.defining name (.symbol other)) := rfl

theorem defalias_quoted {I : Interp} {place definition : Value}
    (isPlace : s.store.IsList place (.symbol "quote") [.symbol name])
    (evaluated : I.eval definition frame s = .ok (.symbol other) s) :
    defalias I [place, definition] frame s =
      .ok (.ofName name) (s.defining name (.symbol other)) := by
  have quoted : headIs place "quote" s = .ok true s := by
    show Outcome.ok ((s.store.car place).isNamed "quote") s = _
    rw [isPlace.car_eq]
    rfl
  have first : car (s.store.cdr place) s = .ok (.symbol name) s :=
    congrArg (Outcome.ok · s) (Store.isCons_of_list? isPlace.cdr_eq).2
  unfold defalias
  refine (bind_of_ok _ rfl).trans ((bind_of_ok _ quoted).trans ?_)
  refine (bind_of_ok _ rfl).trans ((bind_of_ok _ first).trans ?_)
  refine (bind_of_ok _ rfl).trans ((bind_of_ok _ evaluated).trans ?_)
  exact bind_of_ok _ (defineFunction_symbol s name other)

/-- A definition of an alias writes the other name into the function cell. -/
theorem ends_defalias (defines : IsDefalias s.store form name other)
    (room : s.depth + 2 ≤ s.config.maxDepth)
    (defaliasUnbound : s.functions.contains "defalias" = false)
    (quoteUnbound : s.functions.contains "quote" = false) :
    Interp.Ends form frame s (.ok (.ofName name) (s.defining name (.symbol other))) := by
  obtain ⟨place, definition, isDefalias, isPlace, isDefinition⟩ := defines
  have steady : Steady s definition (.symbol other) := steady_quote isDefinition quoteUnbound rfl
  have evaluated : (Interp.ofLevel 1).eval definition frame { s with depth := s.depth + 1 } =
      .ok (.symbol other) { s with depth := s.depth + 1 } :=
    steady _ _ _ ⟨rfl, rfl⟩ rfl (show s.depth + 1 < s.config.maxDepth by omega)
  suffices ended : (Interp.ofLevel 2).eval form frame s =
      .ok (.ofName name) (s.defining name (.symbol other)) from .of_eq ended nofun
  exact (evalForm_special (by omega) isDefalias defaliasUnbound rfl).trans
    (ensuring_of_ok _ (defalias_quoted (s := { s with depth := s.depth + 1 }) isPlace evaluated))

/-- After `(defalias 'NAME 'OTHER)` a call of the new name ends like the same call of the other
one, with the same session, whatever the arguments are.  The new name had no definition; the other
one is that of a function or a macro of the program or of a primitive, which is reached from there
before the aliases that are followed run out. -/
theorem ends_call_alias (defines : IsDefalias s.store form name other)
    (room : s.depth + 2 ≤ s.config.maxDepth)
    (defaliasUnbound : s.functions.contains "defalias" = false)
    (quoteUnbound : s.functions.contains "quote" = false)
    (new : s.functions.contains name = false) (noPrimitive : isPrimitive name = false)
    (found : s.functionFrom .top (Session.aliasLimit - 1) other = some v)
    (ordinary : s.functions.contains other = true ∨ specialForm? other = none) :
    ∃ t, Interp.Ends form frame s (.ok (.ofName name) t) ∧
      t = s.defining name (.symbol other) ∧
        ∀ call call' forms frame', t.store.IsList call (.symbol name) forms →
          t.store.IsList call' (.symbol other) forms →
            ∀ o, Interp.Ends call frame' t o ↔ Interp.Ends call' frame' t o := by
  refine ⟨_, ends_defalias defines room defaliasUnbound quoteUnbound, rfl, ?_⟩
  intro call call' forms frame' byName byOther o
  have cell : (s.defining name (.symbol other)).functions.get? name = some (.symbol other) := by
    show (s.functions.insert name _).get? name = _
    rw [Table.get?_insert, if_pos rfl]
  have stillFound := Session.functionFrom_defining new noPrimitive (.symbol other) found
  have stillOrdinary : (s.defining name (.symbol other)).functions.contains other = true ∨
      specialForm? other = none := by
    refine ordinary.imp_left fun defined => ?_
    show (s.functions.insert name _).contains other = true
    rw [Table.contains_insert, defined]
    exact Bool.or_true _
  exact ends_alias cell stillFound stillOrdinary byName byOther

/-- A primitive by another name. -/
theorem ends_call_alias_car :
    let s : Session :=
      { store := { pairs := #[⟨.symbol "head", .nil⟩, ⟨.symbol "quote", .cons 0⟩,
          ⟨.symbol "car", .nil⟩, ⟨.symbol "quote", .cons 2⟩, ⟨.cons 3, .nil⟩, ⟨.cons 1, .cons 4⟩,
          ⟨.symbol "defalias", .cons 5⟩] } }
    IsDefalias s.store (.cons 6) "head" "car" ∧ s.depth + 2 ≤ s.config.maxDepth ∧
      s.functions.contains "defalias" = false ∧ s.functions.contains "quote" = false ∧
      s.functions.contains "head" = false ∧ isPrimitive "head" = false ∧
      s.functionFrom .top (Session.aliasLimit - 1) "car" = some (.subr "car") ∧
      specialForm? "car" = none ∧
      ∃ t, Interp.Ends (.cons 6) 0 s (.ok (.ofName "head") t) ∧
        t = s.defining "head" (.symbol "car") ∧
          ∀ call call' forms frame', t.store.IsList call (.symbol "head") forms →
            t.store.IsList call' (.symbol "car") forms →
              ∀ o, Interp.Ends call frame' t o ↔ Interp.Ends call' frame' t o := by
  intro s
  have defines : IsDefalias s.store (.cons 6) "head" "car" :=
    ⟨.cons 1, .cons 3, ⟨⟨6, rfl⟩, rfl, rfl⟩, ⟨⟨1, rfl⟩, rfl, rfl⟩, ⟨⟨3, rfl⟩, rfl, rfl⟩⟩
  have room : s.depth + 2 ≤ s.config.maxDepth := by decide
  have noPrimitive : isPrimitive "head" = false := by decide +kernel
  have found : s.functionFrom .top (Session.aliasLimit - 1) "car" = some (.subr "car") := by
    have known : isPrimitive "car" = true := by decide +kernel
    show (if isPrimitive "car" then some (Value.subr "car") else none) = _
    rw [if_pos known]
  have noForm : specialForm? "car" = none := rfl
  exact ⟨defines, room, rfl, rfl, rfl, noPrimitive, found, noForm,
    ends_call_alias defines room rfl rfl rfl noPrimitive found (.inr noForm)⟩

/-- The integer that a program returns in a new session, or the name of the function that it
misses. -/
def answerOf (program : String) : Option (Int64 ⊕ String) :=
  match evalSource program (.new {} {} {}) with
  | .ok (.ok value) _ => value.int?.map .inl
  | .exit (.unimplemented name) _ => some (.inr name)
  | _ => none

/-- A session in which so many names are aliases, each of the next one and the last of a
primitive. -/
def aliasChain (n : Nat) : Session :=
  { functions := .ofList ((List.range n).map fun i =>
      ("f" ++ toString (i + 1),
        .symbol (if i + 1 = n then "list" else "f" ++ toString (i + 2)))) }

/-- A special form has no alias, and neither has a name that is as far from its function as aliases
are followed. -/
theorem not_ends_call_alias :
    answerOf "(if t 1 2)" = some (.inl 1) ∧
      answerOf "(defalias 'my-if 'if) (my-if t 1 2)" = some (.inr "my-if") ∧
      ((aliasChain 31).function? .top "f1").isSome = true ∧
      (((aliasChain 31).defining "f0" (.symbol "f1")).function? .top "f0").isSome = false := by
  decide +kernel

end Forms

end EditorLisp
