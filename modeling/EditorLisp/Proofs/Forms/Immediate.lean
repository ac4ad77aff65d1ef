import EditorLisp.Proofs.Evaluation.Call
import EditorLisp.Proofs.Store.Lists

/-!
# Functions called where they are written

A `let` evaluates its initial forms, binds their values and evaluates its body, and so does the
call of a function that is written in front of its arguments.  The two are read by different
code.  A `let` sorts each binding into the ordinary and the special ones as its value
comes in, a call sorts them all when the last value is there.  Both come down to
`immediate`, provided that no initial form changes which of the names are special.
-/

namespace EditorLisp

/-! ## Evaluating forms in order -/

namespace Interp

variable {I : Interp} {frame : Nat} {s t : Session} {forms values : List Value}

theorem length_of_evalArgs (returned : I.evalArgs frame forms s = .ok values t) :
    values.length = forms.length := by
  induction forms generalizing s values with
  | nil =>
      cases returned
      rfl
  | cons form rest ih =>
      obtain ⟨value, s', -, later⟩ := Eval.ok_of_bind returned
      obtain ⟨others, t', evaluated, done⟩ := Eval.ok_of_bind later
      cases done
      exact congrArg (· + 1) (ih evaluated)

/-- Evaluating forms one after the other never changes which of some names are special. -/
def KeepsKinds (I : Interp) (frame : Nat) (forms : List Value) (names : List String) (s : Session) :
    Prop :=
  ∀ n values t, I.evalArgs frame (forms.take n) s = .ok values t →
    ∀ name ∈ names, t.isSpecial name = s.isSpecial name

theorem KeepsKinds.all {names : List String} (keeps : I.KeepsKinds frame forms names s)
    (returned : I.evalArgs frame forms s = .ok values t) {name : String} (member : name ∈ names) :
    t.isSpecial name = s.isSpecial name :=
  keeps forms.length values t (by rwa [List.take_length]) name member

/-- When the first form has been evaluated, the kinds are those of before. -/
theorem KeepsKinds.first {names : List String} {form value : Value}
    (keeps : I.KeepsKinds frame (form :: forms) names s)
    (returned : I.eval form frame s = .ok value t) {name : String} (member : name ∈ names) : t.isSpecial name = s.isSpecial name :=
  keeps 1 [value] t ((Eval.bind_of_ok _ returned).trans rfl) name member

theorem KeepsKinds.rest {names : List String} {form value : Value}
    (keeps : I.KeepsKinds frame (form :: forms) names s)
    (returned : I.eval form frame s = .ok value t) : I.KeepsKinds frame forms names t := by
  intro n values t' later name member
  have evaluated :
      I.evalArgs frame ((form :: forms).take (n + 1)) s = .ok (value :: values) t' := by
    rw [List.take_succ_cons, evalArgs, Eval.bind_of_ok _ returned, Eval.bind_of_ok _ later]
    rfl
  rw [keeps (n + 1) _ t' evaluated name member, keeps.first returned member]

end Interp

namespace Eval

variable {α β : Type} {s : Session}

/-- Steps that go on alike from what a step returned go on alike from it. -/
theorem bind_congr_of_ok {m : Eval α} {f g : α → Eval β}
    (same : ∀ a s', m s = .ok a s' → f a s' = g a s') : (m >>= f) s = (m >>= g) s := by
  show Eval.bind m f s = Eval.bind m g s
  unfold Eval.bind
  cases ended : m s with
  | ok a s' => exact same a s' ended
  | _ => rfl

/-- Steps that only look at the session give their values together. -/
theorem mapM_of_forall₂ {f : α → Eval β} {items : List α} {results : List β}
    (each : List.Forall₂ (fun a b => f a s = .ok b s) items results) :
    items.mapM f s = .ok results s := by
  induction each with
  | nil => rfl
  | cons first _ ih =>
      rw [List.mapM_cons, bind_of_ok _ first, bind_of_ok _ ih]
      rfl

end Eval

/-! ## Names as parameters -/

/-- A name that does not begin like the markers of parameter lists. -/
def IsOrdinary (name : String) : Prop := name.toList.head? ≠ some '&'

theorem Parameters.ofNames_required {names : List String}
    (ordinary : ∀ name ∈ names, IsOrdinary name) (p : Parameters) :
    ofNames .required p names = { p with required := p.required ++ names } := by
  induction names generalizing p with
  | nil => rw [ofNames, List.append_nil]
  | cons name names ih =>
      have other (marker : String) (marks : marker.toList.head? = some '&') : name ≠ marker :=
        fun same => ordinary name List.mem_cons_self (same ▸ marks)
      have later := ih fun name member => ordinary name (List.mem_cons_of_mem _ member)
      rw [ofNames, if_neg (other _ rfl), if_neg (not_or.mpr ⟨other _ rfl, other _ rfl⟩),
        if_neg (not_or.mpr ⟨other _ rfl, other _ rfl⟩)]
      rw [later, List.append_assoc]
      rfl

namespace Forms

open Eval

variable {I : Interp} {frame : Nat} {s t : Session} {names : List String} {forms body : List Value}

/-- The bindings of the names that are special, and the others. -/
def sorted (special : String → Bool) (bindings : List (String × Value)) :
    List (String × Value) × List (String × Value) :=
  bindings.partition fun b => special b.1

theorem sorted_cons (special : String → Bool) (name : String) (value : Value)
    (bindings : List (String × Value)) :
    sorted special ((name, value) :: bindings) =
      if special name then
        ((name, value) :: (sorted special bindings).1, (sorted special bindings).2)
      else ((sorted special bindings).1, (name, value) :: (sorted special bindings).2) := by
  unfold sorted
  rw [List.partition_eq_filter_filter, List.partition_eq_filter_filter]
  cases kind : special name <;> simp [kind]

theorem sorted_congr {special special' : String → Bool} {bindings : List (String × Value)}
    (same : ∀ b ∈ bindings, special b.1 = special' b.1) :
    sorted special bindings = sorted special' bindings := by
  induction bindings with
  | nil => rfl
  | cons b rest ih =>
      rw [sorted_cons, sorted_cons, same b List.mem_cons_self,
        ih fun b member => same b (List.mem_cons_of_mem _ member)]

/-- Bind names to values and evaluate a body. -/
def bound (I : Interp) (frame : Nat) (body : List Value) (bindings : List (String × Value)) :
    Eval Value := do
  let specials ← get (·.specials)
  let (dynamic, lexical) := sorted specials.contains bindings
  let inner ← alloc (·.childFrameWith frame lexical)
  withDynamic dynamic (I.evalBody inner body)

/-- Evaluate forms, bind names to their values and evaluate a body. -/
def immediate (I : Interp) (frame : Nat) (names : List String) (forms body : List Value) :
    Eval Value := do
  let values ← I.evalArgs frame forms
  bound I frame body (names.zip values)

/-! ## The call -/

/-- A function with some required parameters and no others. -/
def plain (frame : Nat) (names : List String) (body : List Value) : Closure :=
  { params := { required := names }, body, frame := some frame, doc := none, name := none }

/-- Called with as many values as it has parameters, it binds them and evaluates its body. -/
theorem applyClosure_plain {values : List Value} (size : values.length = names.length) :
    applyClosure I (plain frame names body) values s = bound I frame body (names.zip values) s := by
  have paired : (plain frame names body).params.pairUp values = (names.zip values, []) := by
    unfold Parameters.pairUp plain
    simp [size]
  have accepted : ¬(values.length < (plain frame names body).params.least ∨
      (plain frame names body).params.most?.any (· < values.length)) := by
    simp [plain, Parameters.least, Parameters.most?, size]
  unfold applyClosure
  simp only
  rw [if_neg accepted, paired]
  rfl

/-! ## The `let` -/

/-- Sorting each binding as its value comes in is sorting all of them in the end. -/
theorem letValues_eq (sized : names.length = forms.length)
    (keeps : I.KeepsKinds frame forms names s) {special : String → Bool}
    (kinds : ∀ name ∈ names, s.isSpecial name = special name) (dynamic lexical : List (String × Value)) :
    letValues I frame dynamic lexical (names.zip (forms.map some)) s = (do
      let values ← I.evalArgs frame forms
      let parts := sorted special (names.zip values)
      return (dynamic.reverse ++ parts.1, lexical.reverse ++ parts.2)) s := by
  induction forms generalizing s names dynamic lexical with
  | nil =>
      obtain rfl : names = [] := List.length_eq_zero_iff.mp sized
      show Outcome.ok _ s = Outcome.ok _ s
      simp [sorted]
  | cons form rest ih =>
      obtain ⟨name, names, rfl⟩ := List.exists_cons_of_length_eq_add_one sized
      show (I.eval form frame >>= fun value => do
        if (← session).isSpecial name then
          letValues I frame ((name, value) :: dynamic) lexical (names.zip (rest.map some))
        else letValues I frame dynamic ((name, value) :: lexical) (names.zip (rest.map some))) s = _
      rw [Interp.evalArgs, bind_assoc]
      refine bind_congr_of_ok fun value s' returned => ?_
      have kind : s'.isSpecial name = special name :=
        (keeps.first returned List.mem_cons_self).trans (kinds _ List.mem_cons_self)
      have later (other : String) (member : other ∈ names) : s'.isSpecial other = special other :=
        (keeps.first returned (List.mem_cons_of_mem _ member)).trans
          (kinds _ (List.mem_cons_of_mem _ member))
      have others : I.KeepsKinds frame rest names s' := fun n values t evaluated other member =>
        keeps.rest returned n values t evaluated other (List.mem_cons_of_mem _ member)
      have loop := ih (Nat.succ.inj sized) others later
      rw [bind_of_ok _ (rfl : session s' = .ok s' s'), kind, bind_assoc]
      cases isSpecial : special name with
      | true =>
          rw [if_pos rfl, loop]
          refine bind_congr_of_ok fun values t _ => ?_
          rw [pure_bind, List.zip_cons_cons]
          simp [sorted_cons, isSpecial]
      | false =>
          rw [if_neg Bool.false_ne_true, loop]
          refine bind_congr_of_ok fun values t _ => ?_
          rw [pure_bind, List.zip_cons_cons]
          simp [sorted_cons, isSpecial]

end Forms

/-! ## Two forms that say the same -/

namespace Store

/-- The form `(let ((X E) ...) BODY ...)`, with each name and its initial form as a pair. -/
def IsLet (st : Store) (form : Value) (parts : List (Value × Value)) (body : List Value) : Prop :=
  ∃ spec items, st.Lists form (.symbol "let" :: spec :: body) ∧ st.Lists spec items ∧
    List.Forall₂ (fun item part => st.Lists item [part.1, part.2]) items parts

/-- The form `((lambda (X ...) BODY ...) E ...)`. -/
def IsCall (st : Store) (form : Value) (parts : List (Value × Value)) (body : List Value) : Prop :=
  ∃ head params, st.Lists form (head :: parts.map Prod.snd) ∧
    st.Lists head (.symbol "lambda" :: params :: body) ∧ st.Lists params (parts.map Prod.fst)

theorem Lists.of_pair {st : Store} {ref : Nat} {front rest : Value} {items : List Value}
    (there : st.pairs[ref]? = some ⟨front, rest⟩) (lists : st.Lists rest items) :
    st.Lists (.cons ref) (front :: items) :=
  .cons there lists

end Store

namespace Forms

open Eval

variable {I : Interp} {frame : Nat} {s : Session} {names : List String}
  {parts : List (Value × Value)} {body : List Value} {form : Value}

theorem properList_of_lists {v : Value} {items : List Value} (lists : s.store.Lists v items) :
    properList v "listp" s = .ok items s := by
  unfold properList
  rw [lists.list?_eq]

/-- The name and the initial form of one binding. -/
def binding (item : Value) : Eval (String × Option Value) :=
  match item with
  | .cons _ => do
    let name ← symbolName (← car item)
    let rest ← cdr item
    let form ← car rest
    return (name, if rest.isCons then some form else none)
  | other => return (← symbolName other, none)

theorem binding_eq {item place init : Value} {name : String}
    (listed : s.store.Lists item [place, init]) (named : place.symbolName? = some name) :
    binding item s = .ok (name, some init) s := by
  obtain ⟨isPair, front, tail⟩ := listed.uncons
  obtain ⟨isPair', second, -⟩ := tail.uncons
  cases item with
  | cons ref =>
      have read : symbolName (s.store.car (.cons ref)) s = .ok name s :=
        front ▸ symbolName_of_symbolName? named s
      refine (bind_of_ok _ rfl).trans ((bind_of_ok _ read).trans ?_)
      show Outcome.ok (name, if (s.store.cdr (.cons ref)).isCons then
        some (s.store.car (s.store.cdr (.cons ref))) else none) s = _
      rw [isPair', second, if_pos rfl]
  | _ => cases isPair

/-- The bindings of a `let` are read as they are written. -/
theorem bindings_eq {spec : Value} {items : List Value} (listed : s.store.Lists spec items)
    (each : List.Forall₂ (fun item part => s.store.Lists item [part.1, part.2]) items parts)
    (named : parts.map (·.1.symbolName?) = names.map some) :
    bindings spec s = .ok (names.zip ((parts.map Prod.snd).map some)) s := by
  have all : List.Forall₂ (fun item b => binding item s = .ok b s) items
      (names.zip ((parts.map Prod.snd).map some)) := by
    clear listed
    induction each generalizing names with
    | nil =>
        obtain rfl : names = [] := by simpa using named.symm
        exact .nil
    | cons first _ ih =>
        cases names with
        | nil => cases named
        | cons name names =>
            obtain ⟨here, others⟩ := List.cons.inj named
            exact .cons (binding_eq first here) (ih others)
  exact (bind_of_ok _ (properList_of_lists listed)).trans (mapM_of_forall₂ all)

/-- A parameter list is sorted by the names in it. -/
theorem parameters_of_named {params : Value} {places : List Value} {names : List String}
    (listed : s.store.Lists params places)
    (named : places.map Value.symbolName? = names.map some) :
    parameters params s = .ok (.ofNames .required {} names) s := by
  have all : List.Forall₂ (fun place name => symbolName place s = .ok name s) places names := by
    clear listed
    induction places generalizing names with
    | nil =>
        obtain rfl : names = [] := by simpa using named.symm
        exact .nil
    | cons place places ih =>
        cases names with
        | nil => cases named
        | cons name names =>
            obtain ⟨here, others⟩ := List.cons.inj named
            exact .cons (symbolName_of_symbolName? here s) (ih others)
  unfold parameters
  rw [bind_of_ok _ (properList_of_lists listed), bind_of_ok _ (mapM_of_forall₂ all)]
  rfl

/-- The parameters of a function are read as they are written. -/
theorem parameters_eq {params : Value} (listed : s.store.Lists params (parts.map Prod.fst))
    (named : parts.map (·.1.symbolName?) = names.map some)
    (ordinary : ∀ name ∈ names, IsOrdinary name) :
    parameters params s = .ok { required := names } s := by
  have named' : (parts.map Prod.fst).map Value.symbolName? = names.map some := by
    rw [List.map_map]
    exact named
  rw [parameters_of_named listed named', Parameters.ofNames_required ordinary]
  rfl

/-! ## Both forms -/

/-- A `let` evaluates its initial forms, binds its names and evaluates its body. -/
theorem letForm_eq {spec : Value} {items : List Value} (listed : s.store.Lists spec items)
    (each : List.Forall₂ (fun item part => s.store.Lists item [part.1, part.2]) items parts)
    (named : parts.map (·.1.symbolName?) = names.map some)
    (keeps : I.KeepsKinds frame (parts.map Prod.snd) names s) :
    letForm I (spec :: body) frame s = immediate I frame names (parts.map Prod.snd) body s := by
  have sized : names.length = (parts.map Prod.snd).length := by
    simpa using (congrArg List.length named).symm
  show (bindings spec >>= fun parsed => letValues I frame [] [] parsed >>= fun parts => do
    let inner ← alloc (·.childFrameWith frame parts.2)
    withDynamic parts.1 (I.evalBody inner body)) s = _
  rw [bind_of_ok _ (bindings_eq listed each named),
    bind_of_eq _ (letValues_eq sized keeps (fun _ _ => rfl) [] []), immediate, bind_assoc]
  refine bind_congr_of_ok fun values t returned => ?_
  -- which names are special is the same after the last value as before the first
  have kinds : sorted t.specials.contains (names.zip values) =
      sorted s.isSpecial (names.zip values) :=
    sorted_congr fun b member => keeps.all returned (List.of_mem_zip member).1
  rw [pure_bind, bound, bind_of_ok _ (rfl : get (·.specials) t = .ok t.specials t), kinds]
  rfl

/-- A function that is written without documentation and declarations has the body that is
written. -/
theorem closureOf_eq {spec params : Value} (listed : s.store.Lists spec (params :: body))
    (listed' : s.store.Lists params (parts.map Prod.fst))
    (named : parts.map (·.1.symbolName?) = names.map some)
    (ordinary : ∀ name ∈ names, IsOrdinary name)
    (noDeclare : ∀ form ∈ body, (s.store.car form).isNamed "declare" = false)
    (noDoc : ∀ ref doc rest, body = .str ref doc :: rest → rest = []) :
    closureOf spec frame none s = .ok (plain frame names body) s := by
  obtain ⟨-, front, tail⟩ := listed.uncons
  have kept : body.filter (fun form => !(s.store.car form).isNamed "declare") = body :=
    List.filter_eq_self.mpr fun form member => by rw [noDeclare form member, Bool.not_false]
  have read : parameters (s.store.car spec) s = .ok { required := names } s :=
    front ▸ parameters_eq listed' named ordinary
  refine (bind_of_ok _ rfl).trans ((bind_of_ok _ read).trans ((bind_of_ok _ rfl).trans ?_))
  refine (bind_of_ok _ (properList_of_lists tail)).trans ?_
  split
  next _ ref doc rest =>
    obtain rfl := noDoc ref doc rest rfl
    exact congrArg (fun body => Outcome.ok (plain frame names body) s) kept
  next => exact congrArg (fun body => Outcome.ok (plain frame names body) s) kept

/-- The call of a function that is written in front does the same. -/
theorem evalCall_eq {call : Value} (isCall : s.store.IsCall call parts body)
    (named : parts.map (·.1.symbolName?) = names.map some)
    (ordinary : ∀ name ∈ names, IsOrdinary name)
    (noDeclare : ∀ form ∈ body, (s.store.car form).isNamed "declare" = false)
    (noDoc : ∀ ref doc rest, body = .str ref doc :: rest → rest = []) :
    evalCall I call frame s = immediate I frame names (parts.map Prod.snd) body s := by
  obtain ⟨head, params, listed, function, listed'⟩ := isCall
  obtain ⟨-, front, arguments⟩ := listed.uncons
  obtain ⟨isPair, isLambda, spec⟩ := function.uncons
  have sized : (parts.map Prod.snd).length = names.length := by
    simpa using congrArg List.length named
  have closed : closureOf (s.store.cdr head) frame none s = .ok (plain frame names body) s :=
    closureOf_eq spec listed' named ordinary noDeclare noDoc
  have read : car call s = .ok head s := congrArg (Outcome.ok · s) front
  unfold evalCall
  refine (bind_of_ok _ read).trans ((bind_of_ok _ rfl).trans ?_)
  refine (bind_of_ok _ (properList_of_lists arguments)).trans ?_
  cases head with
  | cons ref =>
      have isNamed : headIs (.cons ref) "lambda" s = .ok true s := by
        show Outcome.ok ((s.store.car (.cons ref)).isNamed "lambda") s = _
        rw [isLambda]
        rfl
      refine (bind_of_ok _ isNamed).trans ((bind_of_ok _ rfl).trans ?_)
      refine (bind_of_ok _ closed).trans ?_
      refine bind_congr_of_ok fun values t returned => ?_
      exact applyClosure_plain ((Interp.length_of_evalArgs returned).trans sized)
  | _ => cases isPair

/-- A call is evaluated one level deeper. -/
theorem evalForm_call {form : Value} (room : s.depth < s.config.maxDepth)
    (isPair : ∃ ref, form = .cons ref) :
    evalForm I form frame s = (evalCall I form frame).ensuring
      (fun s => { s with depth := s.depth - 1 }) { s with depth := s.depth + 1 } := by
  obtain ⟨ref, rfl⟩ := isPair
  unfold evalForm
  exact if_neg (Nat.not_lt_of_le room)

/-- A `let` and the call of a function that is written in front, with the same names, initial
forms and body, are evaluated alike, in every session and by every interpreter, be it one that answers
by the depth at which it is asked.  Where evaluation is not nested too deeply, both evaluate the
initial forms and then the body one level deeper than they are evaluated themselves. -/
theorem evalForm_let_eq {form call : Value} (isLet : s.store.IsLet form parts body)
    (isCall : s.store.IsCall call parts body)
    (named : parts.map (·.1.symbolName?) = names.map some)
    (ordinary : ∀ name ∈ names, IsOrdinary name)
    (noDeclare : ∀ form ∈ body, (s.store.car form).isNamed "declare" = false)
    (noDoc : ∀ ref doc rest, body = .str ref doc :: rest → rest = [])
    (unbound : s.functions.contains "let" = false)
    (keeps : I.KeepsKinds frame (parts.map Prod.snd) names { s with depth := s.depth + 1 }) :
    evalForm I form frame s = evalForm I call frame s ∧
      (s.depth < s.config.maxDepth → evalForm I form frame s =
        (immediate I frame names (parts.map Prod.snd) body).ensuring
          (fun s => { s with depth := s.depth - 1 }) { s with depth := s.depth + 1 }) := by
  have ⟨spec, items, written, listed, each⟩ := isLet
  have ⟨head, params, written', _, _⟩ := isCall
  by_cases room : s.depth < s.config.maxDepth
  · have inLet : letForm I (spec :: body) frame { s with depth := s.depth + 1 } =
        immediate I frame names (parts.map Prod.snd) body { s with depth := s.depth + 1 } :=
      letForm_eq (s := { s with depth := s.depth + 1 }) listed each named keeps
    have inCall : evalCall I call frame { s with depth := s.depth + 1 } =
        immediate I frame names (parts.map Prod.snd) body { s with depth := s.depth + 1 } :=
      evalCall_eq (s := { s with depth := s.depth + 1 }) isCall named ordinary noDeclare noDoc
    have evaluated : evalForm I form frame s =
        (immediate I frame names (parts.map Prod.snd) body).ensuring
          (fun s => { s with depth := s.depth - 1 }) { s with depth := s.depth + 1 } :=
      (evalForm_special room written.isList unbound rfl).trans (ensuring_of_eq _ inLet)
    have called := (evalForm_call room written'.isList.isPair).trans (ensuring_of_eq _ inCall)
    exact ⟨evaluated.trans called.symm, fun _ => evaluated⟩
  · have tooDeep : s.config.maxDepth < s.depth + 1 := Nat.lt_succ_of_le (Nat.le_of_not_lt room)
    refine ⟨?_, fun now => absurd now room⟩
    unfold evalForm
    rw [if_pos tooDeep, if_pos tooDeep]

/-- A session with the forms `(let ((x 1)) x)`, the pair 5, and `((lambda (x) x) 1)`, the
pair 8. -/
def twoForms : Session :=
  { store :=
      { pairs := #[⟨.symbol "x", .nil⟩, ⟨.int 1, .nil⟩, ⟨.symbol "x", .cons 1⟩, ⟨.cons 2, .nil⟩,
          ⟨.cons 3, .cons 0⟩, ⟨.symbol "let", .cons 4⟩, ⟨.cons 0, .cons 0⟩,
          ⟨.symbol "lambda", .cons 6⟩, ⟨.cons 7, .cons 1⟩] } }

theorem evalForm_let_eq_one : ∃ t,
    evalForm (.ofLevel 1) (.cons 5) Store.rootFrame twoForms = .ok (.int 1) t ∧
      evalForm (.ofLevel 1) (.cons 8) Store.rootFrame twoForms = .ok (.int 1) t := by
  have x : twoForms.store.Lists (.cons 0) [.symbol "x"] := .of_pair rfl .nil
  have one : twoForms.store.Lists (.cons 1) [.int 1] := .of_pair rfl .nil
  have isLet : twoForms.store.IsLet (.cons 5) [(.symbol "x", .int 1)] [.symbol "x"] :=
    ⟨.cons 3, [.cons 2], .of_pair rfl (.of_pair rfl x), .of_pair rfl .nil,
      .cons (.of_pair rfl one) .nil⟩
  have isCall : twoForms.store.IsCall (.cons 8) [(.symbol "x", .int 1)] [.symbol "x"] :=
    ⟨.cons 7, .cons 0, .of_pair rfl one, .of_pair rfl (.of_pair rfl x), x⟩
  have keeps : Interp.KeepsKinds (.ofLevel 1) Store.rootFrame [.int 1] ["x"]
      { twoForms with depth := 1 } := by
    intro n values t returned name _
    cases n with
    | zero =>
        cases returned
        rfl
    | succ n =>
        rw [List.take_succ_cons, List.take_nil] at returned
        cases returned
        rfl
  have named : [(Value.symbol "x", Value.int 1)].map (·.1.symbolName?) = ["x"].map some := rfl
  have ordinary : ∀ name ∈ ["x"], IsOrdinary name := by simp [IsOrdinary]
  have noDeclare : ∀ form ∈ [Value.symbol "x"],
      (twoForms.store.car form).isNamed "declare" = false := by
    intro form member
    cases List.mem_singleton.mp member
    decide
  have alike := evalForm_let_eq isLet isCall named ordinary noDeclare nofun rfl keeps
  exact ⟨_, alike.1 ▸ rfl, rfl⟩

end Forms

end EditorLisp
