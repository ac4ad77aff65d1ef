import EditorLisp.Forms.Quote
import EditorLisp.Store.Basic

/-!
# Pattern matching

A clause of `pcase` starts with a pattern.  Patterns are read off their forms first and
then matched against a value; a match gives the variables that were bound on the way, in
order.  Predicates and guards see the variables bound so far.
-/

namespace EditorLisp.Forms

open Eval

/-- A pattern. -/
inductive Pattern where
  /-- Matches anything. -/
  | wildcard
  /-- Matches anything and binds it. -/
  | bind (name : String)
  /-- Matches what is structurally equal. -/
  | literal (value : Value)
  /-- Matches what a function accepts, or rejects. -/
  | predicate (function : Value) (negated : Bool)
  /-- Matches if a form is true. -/
  | guard (form : Value)
  /-- Matches if all patterns do. -/
  | all (patterns : List Pattern)
  /-- Matches if one of the patterns does. -/
  | any (patterns : List Pattern)
  /-- Matches a pair by its parts. -/
  | pair (car cdr : Pattern)
  /-- Matches a vector element by element. -/
  | vector (patterns : List Pattern)

/-- The variables bound by a match, first to last. -/
abbrev Bound : Type := List (String × Value)

/-- Complain about a form that is no pattern. -/
def unknownPattern {α : Type} (form : Value) : Eval α := do
  let s ← store
  match (s.car form).symbolName? with
  | some head => error ("Unknown " ++ head ++ " pattern: " ++ s.print form)
  | none => error ("Unknown pattern `" ++ s.print form ++ "'")

/-- The only argument of a pattern form. -/
def onlyArgument (form : Value) : List Value → Eval Value
  | [v] => pure v
  | _ => unknownPattern form

mutual

def readPattern : Nat → Value → Eval Pattern
  | 0, _ => unfinished
  | fuel + 1, form =>
    match form with
    | .t => pure .wildcard
    | .symbol name => pure (if name = "_" then .wildcard else .bind name)
    | .cons _ => do
      let s ← store
      let head := s.car form
      match s.list? (s.cdr form) with
      | none => unknownPattern form
      | some args =>
        match head.symbolName? with
        | none => wrongType "symbolp" head
        | some "quote" => return .literal (← Forms.literal (← onlyArgument form args))
        | some "`" => readTemplate fuel (← onlyArgument form args)
        | some "pred" =>
          let function ← onlyArgument form args
          if ← headIs function "not" then
            return .predicate (← car (← cdr function)) true
          else return .predicate function false
        | some "guard" => return .guard (← onlyArgument form args)
        | some "and" => return .all (← args.mapM (readPattern fuel))
        | some "or" => return .any (← args.mapM (readPattern fuel))
        | some _ => unknownPattern form
    | other => pure (.literal other)

/-- Read a backquoted pattern. -/
def readTemplate : Nat → Value → Eval Pattern
  | 0, _ => unfinished
  | fuel + 1, template =>
    match template with
    | .cons _ => do
      let s ← store
      let head := s.car template
      let tail := s.cdr template
      if head.isNamed "," then readPattern fuel (s.car tail)
      else if head.isNamed vectorMark then
        return .vector (← ((s.list? tail).getD []).mapM (readTemplate fuel))
      else return .pair (← readTemplate fuel head) (← readTemplate fuel tail)
    | other => pure (.literal other)

end

/-- A frame in which the variables bound so far can be seen. -/
def boundFrame (frame : Nat) (bound : Bound) : Eval Nat := alloc (·.childFrameWith frame bound)

/-- Evaluate the elements of a list, reading the list as the evaluation goes. -/
def evalItems (I : Interp) (frame : Nat) : Nat → Value → Eval (List Value)
  | 0, _ => unfinished
  | fuel + 1, v => do
    if v.isCons then
      let form ← car v
      let next ← cdr v
      let value ← I.eval form frame
      return value :: (← evalItems I frame fuel next)
    else return []

/-- Call the function of a predicate pattern; arguments written with it come first. -/
def callPredicate (I : Interp) (function subject : Value) (frame : Nat) : Eval Value := do
  match function with
  | .cons _ =>
    if ← headIs function "lambda" then
      let closure ← I.eval function frame
      I.apply closure [subject]
    else
      let callee ← car function
      let args ← evalItems I frame I.fuel (← cdr function)
      I.apply callee (args ++ [subject])
  | other => I.apply other [subject]

mutual

/-- Match a pattern against a value.  The answer is the variables bound, those from before
included, or nothing. -/
def Pattern.match? (I : Interp) (frame : Nat) : Pattern → Value → Bound → Eval (Option Bound)
  | .wildcard, _, bound => pure (some bound)
  | .bind name, value, bound => pure (some (bound ++ [(name, value)]))
  | .literal expected, value, bound => do
    return if (← store).equal expected value then some bound else none
  | .predicate function negated, value, bound => do
    let inner ← boundFrame frame bound
    let result ← callPredicate I function value inner
    return if result.isTrue != negated then some bound else none
  | .guard form, _, bound => do
    let inner ← boundFrame frame bound
    return if (← I.eval form inner).isTrue then some bound else none
  | .all patterns, value, bound => matchAll I frame patterns value bound
  | .any patterns, value, bound => matchAny I frame patterns value bound
  | .pair carPattern cdrPattern, value, bound => do
    if value.isCons then
      match ← carPattern.match? I frame (← car value) bound with
      | some bound => cdrPattern.match? I frame (← cdr value) bound
      | none => return none
    else return none
  | .vector patterns, value, bound => do
    match (← store).items? value with
    | some items =>
      if items.size = patterns.length then matchEach I frame patterns items.toList bound
      else return none
    | none => return none

/-- Match all patterns against one value. -/
def matchAll (I : Interp) (frame : Nat) : List Pattern → Value → Bound → Eval (Option Bound)
  | [], _, bound => pure (some bound)
  | p :: rest, value, bound => do
    match ← p.match? I frame value bound with
    | some bound => matchAll I frame rest value bound
    | none => return none

/-- Match the first pattern that fits a value. -/
def matchAny (I : Interp) (frame : Nat) : List Pattern → Value → Bound → Eval (Option Bound)
  | [], _, _ => pure none
  | p :: rest, value, bound => do
    match ← p.match? I frame value bound with
    | some bound => return some bound
    | none => matchAny I frame rest value bound

def matchEach (I : Interp) (frame : Nat) : List Pattern → List Value → Bound → Eval (Option Bound)
  | p :: rest, value :: values, bound => do
    match ← p.match? I frame value bound with
    | some bound => matchEach I frame rest values bound
    | none => return none
  | _, _, bound => pure (some bound)

end

/-- Try clauses in order and run the body of the first that matches. -/
def pcaseClauses (I : Interp) (frame : Nat) (subject : Value) : List Value → Eval Value
  | [] => pure .nil
  | clause :: rest => do
    let pattern ← readPattern I.fuel (← car clause)
    match ← pattern.match? I frame subject [] with
    | some bound =>
      let body := (← list? (← cdr clause)).getD []
      let specials ← get (·.specials)
      let (dynamic, lexical) := bound.partition fun b => specials.contains b.1
      let inner ← boundFrame frame lexical
      withDynamic dynamic (I.evalBody inner body)
    | none => pcaseClauses I frame subject rest

def pcase : SpecialForm := fun I forms frame => do
  formArity "pcase" forms 1 none
  let subject ← I.eval (forms.getD 0 .nil) frame
  pcaseClauses I frame subject (forms.drop 1)

end EditorLisp.Forms
