import EditorLisp.Program
import EditorLisp.Proofs.Evaluation.Scope
import EditorLisp.Proofs.Interpreter
import EditorLisp.Proofs.Source.Plain
import EditorLisp.Proofs.Store.Printed

/-!
# A function of one parameter

From the text `((lambda (X) X) N)` to its value: the text is expanded, read, entered into
the store and evaluated.  Expansion is where a parameter list can get lost, because it
takes a name in parentheses for a call without arguments.  Every name that such a call is
not written differently for goes through unharmed and stands for the argument.
-/

namespace EditorLisp

namespace Source

variable {name : String}

/-! ## Reading -/

/-- No number starts with a letter. -/
theorem atomDatum_identifier (identifier : IsIdentifier name.toList) :
    atomDatum name.toList = .ofName name := by
  have whole : String.ofList name.toList = name := String.ofList_toList
  obtain ⟨first, rest, chars, letter, -⟩ := identifier
  rw [chars] at whole ⊢
  have noDigit : Number.isDigit 10 first = false := by
    refine of_isAlphanum (p := fun c => c.isAlpha = true → Number.isDigit 10 c = false)
      (by decide +kernel) ?_ letter
    simp [Char.isAlphanum, letter]
  have noSign : Number.splitSign (first :: rest) = (false, first :: rest) := by
    unfold Number.splitSign
    split
    next h => cases h; exact absurd letter (by decide)
    next h => cases h; exact absurd letter (by decide)
    next => rfl
  have noInt : Number.intLiteral? 10 (first :: rest) = none := by
    unfold Number.intLiteral?
    rw [noSign]
    simp [noDigit]
  have noPoint : first ≠ '.' := by
    rintro rfl
    exact absurd letter (by decide)
  have noFloat : Number.floatLiteral? (first :: rest) = none := by
    unfold Number.floatLiteral? Number.decimalParts?
    rw [noSign]
    simp [noDigit, noPoint]
  unfold atomDatum
  rw [noInt, noFloat, whole, ite_self]

/-- A name that starts with a letter is that of an ordinary symbol, `nil` and `t` apart. -/
theorem ofName_identifier (identifier : IsIdentifier name.toList) (noNil : name ≠ "nil")
    (noT : name ≠ "t") : Datum.ofName name = .symbol name := by
  obtain ⟨first, rest, chars, letter, -⟩ := identifier
  have front : name.front = first := by
    rw [String.front_eq, String.front?_eq, chars]
    rfl
  unfold Datum.ofName
  rw [if_neg noNil, if_neg noT, if_neg]
  rintro ⟨colon, -⟩
  rw [front] at colon
  subst colon
  exact absurd letter (by decide)

theorem written_identifier (identifier : IsIdentifier name.toList) (noNil : name ≠ "nil")
    (noT : name ≠ "t") : Written (.symbol name) name.toList := by
  have inWord := identifier.inWord
  rw [← ofName_identifier identifier noNil noT, ← atomDatum_identifier identifier]
  refine .word ⟨?_, fun c member => ⟨(inWord c member).inAtom, (inWord c member).noBackslash⟩,
    ?_, ?_⟩
  · obtain ⟨first, rest, chars, -⟩ := identifier
    rw [chars]
    exact List.cons_ne_nil first rest
  · intro dot
    have member : '.' ∈ name.toList := dot ▸ List.mem_cons_self
    obtain ⟨first, rest, chars, letter, -⟩ := identifier
    rw [chars] at dot
    cases dot
    exact absurd letter (by decide)
  · intro comment
    exact (inWord '#' (comment.subset List.mem_cons_self)).noMark (by decide)

/-- The text of a call that hands an integer to a function which returns its argument. -/
def identityCall (name : String) (n : Int64) : String :=
  "((lambda (" ++ name ++ ") " ++ name ++ ") " ++ toString n.toInt ++ ")"

theorem toList_identityCall (name : String) (n : Int64) :
    (identityCall name n).toList =
      '(' :: '(' :: (['l', 'a', 'm', 'b', 'd', 'a'] ++ ' ' :: '(' :: (name.toList ++ ')' :: ' ' ::
        (name.toList ++ ')' :: ' ' :: (Number.numeral n.toInt ++ [')'])))) := by
  unfold identityCall
  simp only [String.toList_append, Number.toList_toString, List.append_assoc]
  rfl

/-- The datum that such a call stands for. -/
def identityDatum (name : String) (n : Int64) : Datum :=
  .ofList [.ofList [.symbol "lambda", .ofList [.symbol name], .symbol name], .int n]

theorem plain_identityCall (identifier : IsIdentifier name.toList)
    (other : name ∉ renamedCalls.map Prod.fst) (n : Int64) :
    Plain none (identityCall name n).toList := by
  have close {rest : List Char} (after : ∀ prev, Plain prev rest) (prev : Option Char) :
      Plain prev (')' :: rest) := .character (by decide) (by decide) (after _)
  have blank {rest : List Char} (after : ∀ prev, Plain prev rest) (prev : Option Char) :
      Plain prev (' ' :: rest) := .character (by decide) (by decide) (after _)
  have argument (prev : Option Char) : Plain prev (Number.numeral n.toInt ++ [')']) :=
    .numeral n.toInt (close .nil)
  have body (prev : Option Char) :
      Plain prev (name.toList ++ ')' :: ' ' :: (Number.numeral n.toInt ++ [')'])) :=
    .identifier identifier (close (blank argument))
  have parameters (prev : Option Char) : Plain prev ('(' :: (name.toList ++ ')' :: ' ' ::
      (name.toList ++ ')' :: ' ' :: (Number.numeral n.toInt ++ [')'])))) := by
    refine .parenthesised identifier ?_ (close (blank body))
    rwa [String.ofList_toList]
  have head (prev : Option Char) : Plain prev (['l', 'a', 'm', 'b', 'd', 'a'] ++ ' ' :: '(' ::
      (name.toList ++ ')' :: ' ' :: (name.toList ++ ')' :: ' ' ::
        (Number.numeral n.toInt ++ [')'])))) :=
    .identifier (.of_all (by decide) (by decide)) (blank parameters)
  rw [toList_identityCall]
  exact .open rfl (.open rfl (head _))

theorem written_identityCall (identifier : IsIdentifier name.toList) (noNil : name ≠ "nil")
    (noT : name ≠ "t") (n : Int64) :
    Written (identityDatum name n) (identityCall name n).toList := by
  have word := written_identifier identifier noNil noT
  have keyword : Written (.symbol "lambda") ['l', 'a', 'm', 'b', 'd', 'a'] :=
    @Written.word ['l', 'a', 'm', 'b', 'd', 'a'] ⟨by decide, plain_of_all rfl, by decide, by decide⟩
  have parameters := Written.list word .close
  have function := Written.list keyword (.next parameters (.next word .close))
  have whole := Written.list function (.next (written_numeral n) .close)
  rw [toList_identityCall]
  simpa [identityDatum, Datum.ofList, Datum.listWithTail] using whole

theorem readSource_identityCall (identifier : IsIdentifier name.toList) (noNil : name ≠ "nil")
    (noT : name ≠ "t") (other : name ∉ renamedCalls.map Prod.fst) (n : Int64) :
    readSource (identityCall name n) = .ok [identityDatum name n] := by
  rw [readSource_plain (plain_identityCall identifier other n)]
  exact readExpanded_written (written_identityCall identifier noNil noT n)

end Source

/-! ## Evaluation -/

/-- The condition by which an outcome left, if it did by one. -/
def Outcome.condition? {α : Type} : Outcome α → Option String
  | .exit flow _ => flow.condition?
  | _ => none

namespace Eval

variable {name : String} {s : Session} {frame : Nat}

/-- A name with a letter in front is no mark of a parameter list. -/
theorem parametersOfNames_identifier (identifier : Source.IsIdentifier name.toList) :
    Parameters.ofNames .required {} [name] = { required := [name] } := by
  have ordinary : ∀ mark ∈ ["&optional", "&rest", "&body", "&key", "&aux"], name ≠ mark := by
    have marked : ∀ mark ∈ ["&optional", "&rest", "&body", "&key", "&aux"],
        mark.toList.head? = some '&' := by decide
    rintro mark member rfl
    obtain ⟨first, rest, chars, letter, -⟩ := identifier
    have front := marked name member
    rw [chars] at front
    cases front
    exact absurd letter (by decide)
  simp only [List.mem_cons, List.not_mem_nil, or_false, forall_eq_or_imp, forall_eq] at ordinary
  simp [Parameters.ofNames, ordinary]

/-- The function that returns its argument. -/
def identity (name : String) (frame : Nat) : Closure :=
  { params := { required := [name] }, body := [.symbol name], frame := some frame
    doc := none, name := none }

theorem closureOf_identity (identifier : Source.IsIdentifier name.toList) {spec parameters : Value}
    (isSpec : s.store.IsList spec parameters [.symbol name])
    (single : s.store.list? parameters = some [.symbol name]) :
    closureOf spec frame none s = .ok (identity name frame) s := by
  simp only [closureOf, Eval.parameters, bind, pure, Eval.bind, Eval.pure, properList, car, cdr,
    Eval.get, isSpec.car_eq, isSpec.cdr_eq, single, List.mapM_cons, List.mapM_nil, symbolName,
    Value.symbolName?, parametersOfNames_identifier identifier]
  rfl

/-- Called with an integer it returns the integer, whether the name is special or not. -/
theorem applyClosure_identity (name : String) (frame : Nat) (inOrder : s.workspace.WellFormed)
    (room : s.depth < s.config.maxDepth) (level : Nat) (value : Value) :
    ∃ s', applyClosure (.ofLevel (level + 1)) (identity name frame) [value] s = .ok value s' := by
  have paired : argumentBindings (identity name frame) [value] s = .ok [(name, value)] s := rfl
  obtain ⟨inner, t, saved, called, depth, config, yields⟩ :=
    runsWith_applyClosure (I := .ofLevel (level + 1))
      (by simp [identity, Parameters.least, Parameters.most?]) paired inOrder
      (lastBound?_concat [] name value)
  have body : (Interp.ofLevel (level + 1)).evalBody inner [.symbol name] t = .ok value t :=
    yields (by rwa [depth, config]) (.ofLevel level)
  exact ⟨_, (called.trans (ensuring_of_ok _ body))⟩

/-- A call of a list that starts with `lambda` makes the function, evaluates the argument and
applies the one to the other. -/
theorem evalForm_identityCall (level frame : Nat) (inOrder : s.workspace.WellFormed)
    (identifier : Source.IsIdentifier name.toList) (room : s.depth + 2 ≤ s.config.maxDepth)
    {form head parameters : Value} {n : Int64} (call : s.store.IsList form head [.int n])
    (function : s.store.IsList head (.symbol "lambda") [parameters, .symbol name])
    (spec : s.store.IsList (s.store.cdr head) parameters [.symbol name])
    (single : s.store.list? parameters = some [.symbol name]) :
    ∃ s', evalForm (.ofLevel (level + 2)) form frame s = .ok (.int n) s' := by
  obtain ⟨ref, rfl⟩ := call.isPair
  obtain ⟨ref', rfl⟩ := function.isPair
  let deeper : Session := { s with depth := s.depth + 1 }
  have front : car (.cons ref) deeper = .ok (.cons ref') deeper :=
    congrArg (Outcome.ok · deeper) call.car_eq
  have arguments : properList (s.store.cdr (.cons ref)) "listp" deeper = .ok [.int n] deeper := by
    unfold properList
    rw [show deeper.store = s.store from rfl, call.cdr_eq]
  have isLambda : headIs (.cons ref') "lambda" deeper = .ok true deeper := by
    show Outcome.ok ((s.store.car (.cons ref')).isNamed "lambda") deeper = _
    rw [function.car_eq]
    rfl
  have closed : closureOf (s.store.cdr (.cons ref')) frame none deeper =
      .ok (identity name frame) deeper :=
    closureOf_identity (s := deeper) identifier spec single
  have steady : Steady deeper (.int n) (.int n) := steady_atom deeper (by simp) (by simp)
  have atom : (Interp.ofLevel (level + 2)).eval (.int n) frame deeper = .ok (.int n) deeper :=
    steady (.ofLevel (level + 1)) deeper frame ⟨rfl, rfl⟩ rfl room
  have evaluated : (Interp.ofLevel (level + 2)).evalArgs frame [.int n] deeper =
      .ok [.int n] deeper :=
    (bind_of_ok _ atom).trans rfl
  obtain ⟨s', returned⟩ :=
    applyClosure_identity (s := deeper) name frame inOrder room (level + 1) (.int n)
  have answered : evalCall (.ofLevel (level + 2)) (.cons ref) frame deeper = .ok (.int n) s' := by
    refine (bind_of_ok _ front).trans ((bind_of_ok _ rfl).trans ((bind_of_ok _ arguments).trans ?_))
    refine (bind_of_ok _ isLambda).trans ((bind_of_ok _ rfl).trans ((bind_of_ok _ closed).trans ?_))
    exact (bind_of_ok _ evaluated).trans returned
  unfold evalForm
  rw [if_neg (by omega)]
  exact ⟨_, ensuring_of_ok _ answered⟩

/-- The call as it stands in the store of a new session. -/
theorem enterAll_identityDatum (name : String) (n : Int64) (files : Files)
    (environment : Environment) :
    ∃ s head parameters form,
      alloc (·.enterAll [Source.identityDatum name n]) (.new {} files environment) = .ok [form] s ∧
        s.store.IsList form head [.int n] ∧
          s.store.IsList head (.symbol "lambda") [parameters, .symbol name] ∧
            s.store.IsList (s.store.cdr head) parameters [.symbol name] ∧
              s.store.list? parameters = some [.symbol name] ∧
                s.workspace.WellFormed ∧ s.depth + 2 ≤ s.config.maxDepth :=
  ⟨_, .cons 5, .cons 3, .cons 6, rfl, ⟨⟨6, rfl⟩, rfl, rfl⟩, ⟨⟨5, rfl⟩, rfl, rfl⟩,
    ⟨⟨4, rfl⟩, rfl, rfl⟩, rfl, Workspace.wellFormed_initial,
    show 0 + 2 ≤ ({} : Config).maxDepth by decide⟩

/-- In a new session a call of a function that returns its argument answers with the
argument, for every name of letters, digits and hyphens that starts with a letter, whether
it is special or not, unless it is `nil` or `t` or one whose calls are written
differently. -/
theorem evalSource_identityCall {name : String} (identifier : Source.IsIdentifier name.toList)
    (noConstant : name ∉ ["nil", "t"]) (other : name ∉ Source.renamedCalls.map Prod.fst)
    (n : Int64) (files : Files) (environment : Environment) :
    ∃ s', evalSource (Source.identityCall name n) (.new {} files environment) =
      .ok (.ok (.int n)) s' := by
  simp only [List.mem_cons, List.not_mem_nil, or_false, not_or] at noConstant
  have read := Source.readSource_identityCall identifier noConstant.1 noConstant.2 other n
  obtain ⟨s, head, parameters, form, entered, call, function, spec, single, inOrder, room⟩ :=
    enterAll_identityDatum name n files environment
  obtain ⟨level, isTop⟩ : ∃ level, Interp.topLevel = level + 3 := ⟨4611686018427387901, by decide⟩
  obtain ⟨s', answered⟩ := evalForm_identityCall level Store.rootFrame inOrder identifier room call
    function spec single
  have evaluated : evalAll [form] s = .ok (.int n) s' := by
    unfold evalAll Interp.top
    rw [isTop]
    exact answered
  refine ⟨s', ?_⟩
  unfold evalSource
  rw [read]
  exact (bind_of_ok _ entered).trans ((bind_of_ok _ evaluated).trans rfl)

/-- `load-path` is special, and a parameter like any other. -/
theorem evalSource_identityCall_special :
    ∃ s', evalSource (Source.identityCall "load-path" 5) (.new {} {} {}) = .ok (.ok (.int 5)) s' := by
  have identifier : Source.IsIdentifier "load-path".toList :=
    @Source.IsIdentifier.of_all 'l' ['o', 'a', 'd', '-', 'p', 'a', 't', 'h'] (by decide) (by decide)
  exact evalSource_identityCall identifier (by decide) (by decide) 5 {} {}

/-- The parameter lists of these two functions are written as calls, so that one function
asks for a variable without a value and the other one has no parameter list. -/
theorem evalSource_identityCall_renamed :
    (evalSource (Source.identityCall "point" 5) (.new {} {} {})).condition? =
        some "void-variable" ∧
      (evalSource (Source.identityCall "dun-mode" 5) (.new {} {} {})).condition? =
        some "wrong-type-argument" := by
  decide +kernel

end Eval

end EditorLisp
