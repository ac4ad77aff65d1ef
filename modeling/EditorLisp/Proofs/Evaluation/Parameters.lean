import EditorLisp.Proofs.Evaluation.Scope
import EditorLisp.Proofs.Forms.Immediate

/-!
# Parameters and arguments

A parameter list says how many arguments its function takes and under which names its body finds
them.  The list is sorted when the function is made; the arguments are counted and bound when it
is called.  Here the calls are tied to the list as it was written: which numbers of arguments are
refused, what a refusal reports, and what each name stands for otherwise.
-/

namespace EditorLisp

/-! ## Parameter lists as they are written -/

/-- The words that are no names in a parameter list. -/
def parameterMarks : List String := ["&optional", "&rest", "&body", "&key", "&aux"]

namespace Parameters

variable {p : Parameters} {names more : List String} {name : String}

/-- The names of all parameters. -/
def allNames (p : Parameters) : List String := p.required ++ p.optional ++ p.rest.toList

/-- Parameters written as a list of names: the required ones, the optional ones behind a mark,
which may be left out where there are none, and the one for the rest behind another mark. -/
def WrittenAs (p : Parameters) (names : List String) : Prop :=
  ∃ optionals, (optionals = "&optional" :: p.optional ∨ optionals = [] ∧ p.optional = []) ∧
    names = p.required ++ optionals ++ (p.rest.elim [] fun name => ["&rest", name])

/-- The numbers of arguments that are refused: fewer than there are required parameters and,
unless a parameter takes the rest, more than there are parameters. -/
def Refuses (p : Parameters) (received : Nat) : Prop :=
  received < p.required.length ∨
    p.rest = none ∧ p.required.length + p.optional.length < received

theorem refuses_iff (p : Parameters) (received : Nat) :
    p.Refuses received ↔ received < p.least ∨ p.most?.any (· < received) = true := by
  unfold Refuses least most?
  cases p.rest <;> simp

theorem ofNames_name (plain : name ∉ parameterMarks) (part : ParameterSection) (p : Parameters)
    (more : List String) :
    ofNames part p (name :: more) =
      match part with
      | .required => ofNames part { p with required := p.required ++ [name] } more
      | .optional => ofNames part { p with optional := p.optional ++ [name] } more
      | .rest => ofNames part { p with rest := some name } more
      | .ignored => ofNames part p more := by
  simp only [parameterMarks, List.mem_cons, List.not_mem_nil, or_false, not_or] at plain
  obtain ⟨noOptional, noRest, noBody, noKey, noAux⟩ := plain
  cases part with
  | _ =>
      rw [ofNames, if_neg noOptional, if_neg (not_or.mpr ⟨noRest, noBody⟩),
        if_neg (not_or.mpr ⟨noKey, noAux⟩)]

theorem ofNames_required_append (plain : ∀ name ∈ names, name ∉ parameterMarks)
    (p : Parameters) (more : List String) :
    ofNames .required p (names ++ more) =
      ofNames .required { p with required := p.required ++ names } more := by
  induction names generalizing p with
  | nil => rw [List.append_nil, List.nil_append]
  | cons name names ih =>
      rw [List.forall_mem_cons] at plain
      rw [List.cons_append, ofNames_name plain.1]
      refine (ih plain.2 _).trans ?_
      simp only [List.append_assoc, List.singleton_append]

theorem ofNames_optional_append (plain : ∀ name ∈ names, name ∉ parameterMarks)
    (p : Parameters) (more : List String) :
    ofNames .optional p (names ++ more) =
      ofNames .optional { p with optional := p.optional ++ names } more := by
  induction names generalizing p with
  | nil => rw [List.append_nil, List.nil_append]
  | cons name names ih =>
      rw [List.forall_mem_cons] at plain
      rw [List.cons_append, ofNames_name plain.1]
      refine (ih plain.2 _).trans ?_
      simp only [List.append_assoc, List.singleton_append]

theorem ofNames_rest (part : ParameterSection) (p : Parameters) {rest : Option String}
    (plain : ∀ name ∈ rest, name ∉ parameterMarks) (noRest : p.rest = none) :
    ofNames part p (rest.elim [] fun name => ["&rest", name]) = { p with rest } := by
  cases rest with
  | none =>
      obtain ⟨required, optional, rest⟩ := p
      cases noRest
      cases part with
      | _ => rfl
  | some name =>
      have marked : ofNames part p ["&rest", name] = ofNames .rest p [name] := by
        cases part with
        | _ => simp only [ofNames, String.reduceEq, if_false, true_or, if_true]
      refine marked.trans ((ofNames_name (plain name rfl) ..).trans ?_)
      rfl

/-- A parameter list that is written for some parameters is sorted into them. -/
theorem WrittenAs.ofNames_eq (written : p.WrittenAs names)
    (plain : ∀ name ∈ p.allNames, name ∉ parameterMarks) : ofNames .required {} names = p := by
  obtain ⟨optionals, isWritten, rfl⟩ := written
  have required : ∀ name ∈ p.required, name ∉ parameterMarks := fun name member =>
    plain name (List.mem_append_left _ (List.mem_append_left _ member))
  have optional : ∀ name ∈ p.optional, name ∉ parameterMarks := fun name member =>
    plain name (List.mem_append_left _ (List.mem_append_right _ member))
  have rest : ∀ name ∈ p.rest, name ∉ parameterMarks := fun name member =>
    plain name (List.mem_append_right _ (Option.mem_toList.mpr member))
  rw [List.append_assoc, ofNames_required_append required]
  rcases isWritten with rfl | ⟨rfl, none⟩
  · rw [List.cons_append, ofNames, if_pos rfl, ofNames_optional_append optional,
      ofNames_rest _ _ rest rfl]
    rfl
  · refine (ofNames_rest .required { required := p.required } rest rfl).trans ?_
    rw [← none]

/-! ## Names and arguments in pairs -/

/-- A required parameter is paired with the argument in its place. -/
theorem mem_pairUp_required {args : List Value} {i : Nat} (named : p.required[i]? = some name)
    {v : Value} (given : args[i]? = some v) : (name, v) ∈ (p.pairUp args).1 := by
  obtain ⟨inside, rfl⟩ := List.getElem?_eq_some_iff.mp named
  obtain ⟨inside', rfl⟩ := List.getElem?_eq_some_iff.mp given
  refine List.mem_iff_getElem?.mpr ⟨i, ?_⟩
  unfold pairUp
  simp [List.getElem?_zip_eq_some, List.getElem?_append_left, inside, inside']

/-- An optional parameter is paired with the argument in its place after the required ones, or
with the empty list where there is none. -/
theorem mem_pairUp_optional (args : List Value) {i : Nat} (named : p.optional[i]? = some name) :
    (name, args[p.required.length + i]?.getD .nil) ∈ (p.pairUp args).1 := by
  obtain ⟨inside, rfl⟩ := List.getElem?_eq_some_iff.mp named
  refine List.mem_iff_getElem?.mpr ⟨p.required.length + i, ?_⟩
  unfold pairUp
  refine List.getElem?_zip_eq_some.mpr ⟨by simp [inside], ?_⟩
  simp only
  rcases Nat.lt_or_ge (p.required.length + i) args.length with given | missing
  · rw [List.getElem?_append_left given, List.getElem?_eq_getElem given, Option.getD_some]
  · rw [List.getElem?_append_right missing, List.getElem?_eq_none missing, Option.getD_none,
      List.getElem?_replicate_of_lt]
    rw [List.length_append]
    omega

theorem names_pairUp (p : Parameters) (args : List Value) :
    (p.pairUp args).1.map Prod.fst = p.required ++ p.optional := by
  unfold pairUp
  refine List.map_fst_zip ?_
  simp only [List.length_append, List.length_replicate]
  omega

end Parameters

/-! ## The scope of the parameters -/

namespace Session

variable {s : Session} {name : String} {value : Value} {frame : Nat}

/-- What the body of a function finds under the name of a parameter: its value, which stands in
the frame of the call, or, for a special variable, outside of all frames. -/
structure BindsTo (s : Session) (frame : Nat) (name : String) (value : Value) : Prop where
  valueIn?_eq : s.valueIn? name frame = some value
  lexical : s.isSpecial name = false → s.store.varIn? frame name = some value
  dynamic : s.isSpecial name = true →
    s.outerValue? name = some value ∧ s.store.varIn? frame name = none

theorem store_scope (s : Session) (parent : Nat) (dynamic lexical : List (String × Value)) :
    (s.scope parent dynamic lexical).store = (s.store.childFrameWith parent lexical).2 := by
  obtain ⟨globals, workspace, only⟩ :=
    bindSpecials_eq { s with store := (s.store.childFrameWith parent lexical).2 } dynamic
  unfold scope
  rw [only]

theorem varIn?_scope (s : Session) (parent : Nat) (dynamic lexical : List (String × Value))
    (name : String) :
    (s.scope parent dynamic lexical).store.varIn? s.store.frames.size name =
      lastBound? lexical name := by
  rw [store_scope]
  unfold Store.varIn?
  exact (congrArg (Option.bind · _) Array.getElem?_push_size).trans (Table.get?_ofList lexical name)

/-- Sorted by the special variables, bindings give each name the last of its values, in one of
the two ways. -/
theorem bindsTo_scope (inOrder : s.workspace.WellFormed) (parent : Nat)
    {bindings : List (String × Value)} (bound : lastBound? bindings name = some value) :
    (s.scope parent (bindings.partition fun b => s.specials.contains b.1).1
        (bindings.partition fun b => s.specials.contains b.1).2).BindsTo
      s.store.frames.size name value := by
  have kind : ∀ dynamic lexical,
      (s.scope parent dynamic lexical).isSpecial name = s.specials.contains name :=
    fun dynamic lexical => isSpecial_bindSpecials
      { s with store := (s.store.childFrameWith parent lexical).2 } dynamic name
  have sorted := (lastBound?_partition s.specials bindings name).trans bound
  have found := valueIn?_scope inOrder parent sorted
  refine ⟨found, fun ordinary => ?_, fun special => ⟨?_, ?_⟩⟩
  · rw [kind] at ordinary
    rw [ordinary, if_neg Bool.false_ne_true] at sorted
    rw [varIn?_scope, sorted]
  · rwa [valueIn?_of_isSpecial special] at found
  · rw [kind] at special
    rw [varIn?_scope, List.partition_eq_filter_filter]
    refine List.lookup_eq_none_iff.mpr fun b member => bne_iff_ne.mpr fun same => ?_
    have ordinary := (List.mem_filter.mp (List.mem_reverse.mp member)).2
    rw [Function.comp_apply, ← same, special] at ordinary
    cases ordinary

end Session

/-! ## Calls -/

namespace Eval

variable {I : Interp} {s t : Session} {c : Closure} {args : List Value}

/-- A call with a wrong number of arguments is refused at once. -/
theorem applyClosure_of_refuses (refused : c.params.Refuses args.length) (I : Interp)
    (s : Session) : applyClosure I c args s =
      .exit (.arity ⟨c.name, c.params.least, c.params.most?, args.length⟩) s := by
  unfold applyClosure
  rw [if_pos ((c.params.refuses_iff args.length).mp refused)]
  rfl

/-- The arguments that are left over are made into a list, and nothing else happens before a
call binds its parameters. -/
theorem argumentBindings_eq (c : Closure) (args : List Value) (s : Session) :
    ∃ bindings store, argumentBindings c args s = .ok bindings { s with store } ∧
      store.frames = s.store.frames ∧
      bindings.map Prod.fst = c.params.allNames ∧
      (∀ b ∈ (c.params.pairUp args).1, b ∈ bindings) ∧
      ∀ name, c.params.rest = some name →
        ∃ v, (name, v) ∈ bindings ∧
          store.Lists v (args.drop (c.params.required.length + c.params.optional.length)) := by
  unfold argumentBindings Parameters.allNames
  cases rest : c.params.rest with
  | none =>
      refine ⟨(c.params.pairUp args).1, s.store, rfl, rfl, ?_, fun b member => member, nofun⟩
      rw [Parameters.names_pairUp, Option.toList_none, List.append_nil]
  | some name =>
      have made := (s.store.lists_list (c.params.pairUp args).2).1
      refine ⟨_, (s.store.list (c.params.pairUp args).2).2, rfl,
        s.store.frames_listWithTail _ _, ?_, fun b => List.mem_append_left _, ?_⟩
      · rw [List.map_append, Parameters.names_pairUp]
        rfl
      · rintro name' ⟨⟩
        refine ⟨_, List.mem_append_right _ (List.mem_singleton_self _), ?_⟩
        rwa [← List.length_append]

/-- A call with an acceptable number of arguments runs the body of the function in a new frame,
where each parameter is bound to its arguments. -/
theorem applyClosure_of_accepts (accepted : ¬c.params.Refuses args.length)
    (distinct : c.params.allNames.Nodup) (inOrder : s.workspace.WellFormed) :
    ∃ t saved,
      (∀ I, applyClosure I c args s =
        (I.evalBody s.store.frames.size c.body).ensuring (·.undoBindings saved) t) ∧
      (∀ name, t.isSpecial name = s.isSpecial name) ∧
      (∀ (i : Nat) (name : String), c.params.required[i]? = some name →
        ∃ v, args[i]? = some v ∧ t.BindsTo s.store.frames.size name v) ∧
      (∀ (i : Nat) (name : String), c.params.optional[i]? = some name →
        t.BindsTo s.store.frames.size name
          (args[c.params.required.length + i]?.getD .nil)) ∧
      ∀ name, c.params.rest = some name →
        ∃ v, t.BindsTo s.store.frames.size name v ∧
          t.store.Lists v (args.drop (c.params.required.length + c.params.optional.length)) := by
  obtain ⟨bindings, store, paired, frames, names, pairs, rest⟩ := argumentBindings_eq c args s
  let parent := c.frame.getD Store.rootFrame
  let sorted := bindings.partition fun b => s.specials.contains b.1
  let inner : Session := { s with store }
  have once : (bindings.map Prod.fst).Nodup := names ▸ distinct
  have bound {name : String} {v : Value} (member : (name, v) ∈ bindings) :
      (inner.scope parent sorted.1 sorted.2).BindsTo s.store.frames.size name v := by
    rw [← frames]
    exact Session.bindsTo_scope (s := inner) inOrder parent (lastBound?_of_mem member once)
  have enough : c.params.required.length ≤ args.length :=
    Nat.le_of_not_lt fun short => accepted (.inl short)
  refine ⟨inner.scope parent sorted.1 sorted.2,
    (({ inner with store := (store.childFrameWith parent sorted.2).2 } : Session).bindSpecials
      sorted.1).1, fun I => ?_, fun name => ?_, fun i name named => ?_, fun i name named => ?_,
    fun name named => ?_⟩
  · rw [applyClosure_eq ((c.params.refuses_iff args.length).not.mp accepted) paired,
      withDynamic_eq, ← frames]
    rfl
  · exact Session.isSpecial_bindSpecials
      { inner with store := (store.childFrameWith parent sorted.2).2 } sorted.1 name
  · have inside : i < args.length :=
      Nat.lt_of_lt_of_le (List.getElem?_eq_some_iff.mp named).choose enough
    have given : args[i]? = some args[i] := List.getElem?_eq_getElem inside
    exact ⟨_, given, bound (pairs _ (Parameters.mem_pairUp_required named given))⟩
  · exact bound (pairs _ (Parameters.mem_pairUp_optional args named))
  · obtain ⟨v, member, lists⟩ := rest name named
    refine ⟨v, bound member, ?_⟩
    rw [Session.store_scope]
    exact lists.mono fun _ _ there => there

/-- A function is made with the parameters that its list is written for. -/
theorem params_of_closureOf {p : Parameters} {names : List String} {spec : Value}
    {places : List Value} {frame : Nat} {name : Option String} (written : p.WrittenAs names)
    (plain : ∀ name ∈ p.allNames, name ∉ parameterMarks)
    (listed : s.store.Lists (s.store.car spec) places)
    (named : places.map Value.symbolName? = names.map some)
    (made : closureOf spec frame name s = .ok c t) : c.params = p ∧ c.name = name := by
  have read : parameters (s.store.car spec) s = .ok p s := by
    rw [Forms.parameters_of_named listed named, written.ofNames_eq plain]
  unfold closureOf at made
  obtain ⟨list, s₁, ⟨⟩, made⟩ := ok_of_bind made
  obtain ⟨params, s₂, read', made⟩ := ok_of_bind made
  cases read.symm.trans read'
  obtain ⟨rest, s₃, ⟨⟩, made⟩ := ok_of_bind made
  obtain ⟨body, s₄, -, made⟩ := ok_of_bind made
  dsimp only at made
  split at made
  all_goals
    obtain ⟨store, s₅, ⟨⟩, made⟩ := ok_of_bind made
    cases made
    exact ⟨rfl, rfl⟩

/-- Let a function be made from a list of distinct parameters, required ones, optional ones and
perhaps one for the rest.  A call of it fails by itself, whatever its body does, exactly if there
are fewer arguments than required parameters, or more than parameters and none of them takes the
rest.  It then fails at once, with an error that reports the name of the function, the least and
the greatest number of arguments and how many there were.  Otherwise the call runs the body in a
new frame and undoes the bindings afterwards.  There each required parameter has the argument in
its place, each optional one the argument in its place after those or `nil`, and the last one the
list of the other arguments: special variables are bound dynamically, the others in the frame. -/
theorem applyClosure_written {p : Parameters} {names : List String} {spec : Value}
    {places : List Value} {frame : Nat} {name : Option String} {s' : Session}
    (written : p.WrittenAs names) (distinct : p.allNames.Nodup)
    (plain : ∀ name ∈ p.allNames, name ∉ parameterMarks)
    (listed : s.store.Lists (s.store.car spec) places)
    (named : places.map Value.symbolName? = names.map some)
    (made : closureOf spec frame name s = .ok c s') (inOrder : t.workspace.WellFormed)
    (args : List Value) :
    ((∀ I, ∃ error u, applyClosure I c args t = .exit (.arity error) u) ↔
      args.length < p.required.length ∨
        p.rest = none ∧ p.required.length + p.optional.length < args.length) ∧
    (args.length < p.required.length ∨
        p.rest = none ∧ p.required.length + p.optional.length < args.length →
      ∃ error : ArityError, (∀ I, applyClosure I c args t = .exit (.arity error) t) ∧
        error.function = name ∧ error.minimum = p.required.length ∧
        error.maximum =
          (if p.rest = none then some (p.required.length + p.optional.length) else none) ∧
        (error.isExact = true ↔ error.maximum = some error.minimum) ∧
        error.received = args.length) ∧
    (¬(args.length < p.required.length ∨
        p.rest = none ∧ p.required.length + p.optional.length < args.length) →
      ∃ u saved,
        (∀ I, applyClosure I c args t =
          (I.evalBody t.store.frames.size c.body).ensuring (·.undoBindings saved) u) ∧
        (∀ name, u.isSpecial name = t.isSpecial name) ∧
        (∀ (i : Nat) (name : String), p.required[i]? = some name →
          ∃ v, args[i]? = some v ∧ u.BindsTo t.store.frames.size name v) ∧
        (∀ (i : Nat) (name : String), p.optional[i]? = some name →
          u.BindsTo t.store.frames.size name (args[p.required.length + i]?.getD .nil)) ∧
        ∀ name, p.rest = some name →
          ∃ v, u.BindsTo t.store.frames.size name v ∧
            u.store.Lists v (args.drop (p.required.length + p.optional.length))) := by
  obtain ⟨rfl, rfl⟩ := params_of_closureOf written plain listed named made
  refine ⟨⟨fun fails => ?_, fun refused I => ?_⟩, fun refused => ?_, fun accepted =>
    applyClosure_of_accepts accepted distinct inOrder⟩
  · -- with an interpreter that answers nothing, no body fails
    by_contra accepted
    obtain ⟨u, saved, called, -⟩ := applyClosure_of_accepts accepted distinct inOrder
    let mute : Interp := ⟨0, fun _ => crash, fun _ => false⟩
    obtain ⟨error, u', left⟩ := fails mute
    rw [called mute] at left
    unfold ensuring at left
    cases body : c.body with
    | nil =>
        rw [body] at left
        cases left
    | cons form rest =>
        rw [body] at left
        cases rest with
        | nil => cases left
        | cons => cases left
  · exact ⟨_, t, applyClosure_of_refuses refused I t⟩
  · refine ⟨_, fun I => applyClosure_of_refuses refused I t, rfl, rfl, ?_, ?_, rfl⟩
    · unfold Parameters.most?
      cases c.params.rest <;> rfl
    · exact beq_iff_eq

/-- A session with the parameters and the body of `(lambda (a &optional b &rest r) r)`, the pair
6, in which one of the parameters is special. -/
def threeParameters : Session :=
  { store :=
      { pairs := #[⟨.symbol "r", .nil⟩, ⟨.symbol "&rest", .cons 0⟩, ⟨.symbol "b", .cons 1⟩,
          ⟨.symbol "&optional", .cons 2⟩, ⟨.symbol "a", .cons 3⟩, ⟨.symbol "r", .nil⟩,
          ⟨.cons 4, .cons 5⟩] }
    specials := .ofList [("b", ())], workspace := .initial }

theorem applyClosure_written_three :
    let p : Parameters := { required := ["a"], optional := ["b"], rest := some "r" }
    p.WrittenAs ["a", "&optional", "b", "&rest", "r"] ∧ p.allNames.Nodup ∧
      (∀ name ∈ p.allNames, name ∉ parameterMarks) ∧
      threeParameters.store.Lists (threeParameters.store.car (.cons 6))
        [.symbol "a", .symbol "&optional", .symbol "b", .symbol "&rest", .symbol "r"] ∧
      threeParameters.workspace.WellFormed ∧
      ∃ c, closureOf (.cons 6) Store.rootFrame none threeParameters = .ok c threeParameters ∧
        (∀ I, ∃ error u, applyClosure I c [] threeParameters = .exit (.arity error) u) ∧
        ∃ u : Session, u.BindsTo 1 "a" (.int 1) ∧ u.BindsTo 1 "b" (.int 2) ∧
          ∃ v, u.BindsTo 1 "r" v ∧ u.store.Lists v [.int 3, .int 4] := by
  intro p
  have written : p.WrittenAs ["a", "&optional", "b", "&rest", "r"] :=
    ⟨["&optional", "b"], .inl rfl, rfl⟩
  have listed : threeParameters.store.Lists (.cons 4)
      [.symbol "a", .symbol "&optional", .symbol "b", .symbol "&rest", .symbol "r"] :=
    .of_pair rfl (.of_pair rfl (.of_pair rfl (.of_pair rfl (.of_pair rfl .nil))))
  have made : closureOf (.cons 6) Store.rootFrame none threeParameters =
      .ok { params := p, body := [.symbol "r"], frame := some 0, doc := none, name := none }
        threeParameters := rfl
  have distinct : p.allNames.Nodup := by decide
  have plain : ∀ name ∈ p.allNames, name ∉ parameterMarks := by decide
  have inOrder : threeParameters.workspace.WellFormed := Workspace.wellFormed_initial
  obtain ⟨fails, -, -⟩ := applyClosure_written written distinct plain listed rfl made inOrder []
  obtain ⟨-, -, runs⟩ := applyClosure_written written distinct plain listed rfl made inOrder
    [.int 1, .int 2, .int 3, .int 4]
  obtain ⟨u, saved, -, -, required, optional, rest⟩ := runs (by decide)
  obtain ⟨a, given, isA⟩ := required 0 "a" rfl
  cases given
  exact ⟨written, distinct, plain, listed, inOrder, _, made, fails.mpr (.inl (by decide)), u, isA,
    optional 0 "b" rfl, rest "r" rfl⟩

end Eval

end EditorLisp
