import EditorLisp.Primitives.Arithmetic

/-!
# Loops with clauses

The clauses of `cl-loop` are read first.  Each round then asks every clause that can end
the loop, binds the variables, and runs the one action.  Counting stops at the edge of the
machine integers rather than wrapping around, and no loop makes more than a fixed number
of rounds.
-/

namespace EditorLisp.Forms

open Eval Number

/-- The greatest number of rounds. -/
def maxRounds : Nat := 100000

/-- When counting ends. -/
inductive CountEnd where
  /-- After the end value, counting up. -/
  | upTo
  /-- After the end value, counting down. -/
  | downTo
  /-- Before the end value, counting up. -/
  | below
  /-- Never. -/
  | unbounded
deriving Repr, DecidableEq

/-- A counting clause as written. -/
structure CountClause where
  var : String
  start : Value
  step : Value
  stop : Option Value
  ending : CountEnd

/-- What a round does. -/
inductive LoopAction where
  | run (body : List Value)
  | sum (form : Value)
  | collect (form : Value)

/-- The clauses of a loop. -/
structure LoopSpec where
  with_ : List (String × Option Value) := []
  assigns : List (String × Value) := []
  sequences : List (String × Value) := []
  counts : List CountClause := []
  conditions : List Value := []
  limit : Option Value := none
  action : Option LoopAction := none

/-- Why clauses cannot be read. -/
inductive LoopError where
  | malformed (clause : String)
  | unsupported (form : Value)
  | notSymbol (form : Value)

def nextForm (clause : String) : List Value → Except LoopError (Value × List Value)
  | form :: rest => .ok (form, rest)
  | [] => .error (.malformed clause)

def nextVariable (clause : String) (forms : List Value) : Except LoopError (String × List Value) := do
  let (form, rest) ← nextForm clause forms
  match form.symbolName? with
  | some name => return (name, rest)
  | none => throw (.notSymbol form)

/-- The words after a starting value. -/
def countWords (count : CountClause) : Nat → List Value → Except LoopError (CountClause × List Value)
  | 0, forms => .ok (count, forms)
  | fuel + 1, forms =>
    let word := forms.head?.bind Value.symbolName?
    let ending : Option (Option CountEnd) :=
      if word = some "by" then some none
      else if word = some "to" ∨ word = some "upto" then some (some .upTo)
      else if word = some "downto" then some (some .downTo)
      else if word = some "below" then some (some .below)
      else none
    match ending with
    | none => .ok (count, forms)
    | some ending => do
      let (operand, rest) ← nextForm "for" (forms.drop 1)
      let count := match ending with
        | none => { count with step := operand }
        | some ending => { count with ending, stop := some operand }
      countWords count fuel rest

def readFor (spec : LoopSpec) (forms : List Value) : Except LoopError (LoopSpec × List Value) := do
  let (var, rest) ← nextVariable "for" forms
  let (opForm, rest) ← nextForm "for" rest
  match opForm.symbolName? with
  | some "=" =>
    let (form, rest) ← nextForm "for" rest
    return ({ spec with assigns := spec.assigns ++ [(var, form)] }, rest)
  | some "in" | some "across" =>
    let (form, rest) ← nextForm "for" rest
    return ({ spec with sequences := spec.sequences ++ [(var, form)] }, rest)
  | some "below" =>
    let (form, rest) ← nextForm "for" rest
    return ({ spec with counts := spec.counts ++ [⟨var, .int 0, .int 1, some form, .below⟩] }, rest)
  | some "to" =>
    let (form, rest) ← nextForm "for" rest
    return ({ spec with counts := spec.counts ++ [⟨var, .int 0, .int 1, some form, .upTo⟩] }, rest)
  | some op =>
    if op = "from" ∨ op = "upfrom" ∨ op = "downfrom" then
      let (start, rest) ← nextForm "for" rest
      let ending := if op = "downfrom" then CountEnd.downTo else .unbounded
      let (count, rest) ← countWords ⟨var, start, .int 1, none, ending⟩ rest.length rest
      return ({ spec with counts := spec.counts ++ [count] }, rest)
    else throw (.malformed "for")
  | none => throw (.malformed "for")

/-- Read clauses; each takes at least one form. -/
def readClauses : Nat → LoopSpec → List Value → Except LoopError LoopSpec
  | 0, spec, _ => .ok spec
  | _, spec, [] => .ok spec
  | fuel + 1, spec, form :: rest =>
    match form.symbolName? with
    | some "with" => do
      let (var, rest) ← nextVariable "with" rest
      if rest.head?.bind Value.symbolName? = some "=" then
        let (init, rest) ← nextForm "with" (rest.drop 1)
        readClauses fuel { spec with with_ := spec.with_ ++ [(var, some init)] } rest
      else readClauses fuel { spec with with_ := spec.with_ ++ [(var, none)] } rest
    | some "for" => do
      let (spec, rest) ← readFor spec rest
      readClauses fuel spec rest
    | some "while" => do
      let (test, rest) ← nextForm "while" rest
      readClauses fuel { spec with conditions := spec.conditions ++ [test] } rest
    | some "repeat" => do
      let (count, rest) ← nextForm "repeat" rest
      readClauses fuel { spec with limit := some count } rest
    | some "do" => .ok { spec with action := some (.run rest) }
    | some "sum" => do
      let (form, rest) ← nextForm "sum" rest
      readClauses fuel { spec with action := some (.sum form) } rest
    | some "collect" => do
      let (form, rest) ← nextForm "collect" rest
      readClauses fuel { spec with action := some (.collect form) } rest
    | _ => .error (.unsupported form)

def LoopSpec.ofForms (forms : List Value) : Eval LoopSpec := do
  match readClauses forms.length {} forms with
  | .ok spec => return spec
  | .error (.malformed clause) => error ("cl-loop: malformed " ++ clause ++ " clause")
  | .error (.unsupported form) => error ("cl-loop: unsupported clause " ++ (← store).print form)
  | .error (.notSymbol form) => wrongType "symbolp" form

/-! ## Counting -/

/-- A running count. -/
structure Counter where
  var : String
  value : Int64
  step : Int64
  stop : Int64
  ending : CountEnd
  /-- Whether the next value would not fit. -/
  exhausted : Bool := false
deriving Repr, DecidableEq

namespace Counter

/-- Whether the count is not over. -/
def inRange (c : Counter) : Bool :=
  !c.exhausted && match c.ending with
    | .upTo => c.value ≤ c.stop
    | .downTo => c.stop ≤ c.value
    | .below => c.value < c.stop
    | .unbounded => true

def advance (c : Counter) : Counter :=
  let next := match c.ending with
    | .downTo => sub? c.value c.step
    | _ => add? c.value c.step
  match next with
  | some value => { c with value }
  | none => { c with exhausted := true }

end Counter

/-- A step is never zero and counts in the direction of the clause. -/
def stepSize? (step : Int64) : Option Int64 := if step = 0 then some 1 else abs? step

def CountClause.begin (I : Interp) (frame : Nat) (c : CountClause) : Eval Counter := do
  let value ← integer (← I.eval c.start frame)
  let stop ← match c.stop with
    | some form => do integer (← I.eval form frame)
    | none => pure 0
  let step ← integer (← I.eval c.step frame)
  return { var := c.var, value, step := ← granted (stepSize? step), stop, ending := c.ending }

/-! ## Rounds -/

/-- What the rounds so far have produced. -/
structure LoopResult where
  last : Value := .nil
  total : Value := .int 0
  /-- What was collected, in reverse. -/
  collected : List Value := []

/-- Add a value to a total, which stays an integer until a float is added. -/
def addTotal (total value : Value) : Eval Value := do
  match total, value with
  | .int a, .int b => return .int (← Primitives.fits (add? a b))
  | .int a, .float b => return .float (ofInt a.toInt + b)
  | .float a, .int b => return .float (a + ofInt b.toInt)
  | .float a, .float b => return .float (a + b)
  | _, other => wrongType "number-or-marker-p" other

/-- Run the action of a round. -/
def LoopAction.perform (I : Interp) (frame : Nat) (action : LoopAction) (r : LoopResult) :
    Eval LoopResult := do
  match action with
  | .run body => return { r with last := ← I.evalBody frame body }
  | .sum form => return { r with total := ← addTotal r.total (← I.eval form frame) }
  | .collect form => return { r with collected := (← I.eval form frame) :: r.collected }

/-- Evaluate and define the variables that are assigned anew in each round. -/
def assignVariables (I : Interp) (frame : Nat) : List (String × Value) → Eval Unit
  | [] => pure ()
  | (var, form) :: rest => do
    let value ← I.eval form frame
    modifyStore (·.defineIn frame var value)
    assignVariables I frame rest

/-- Whether all conditions hold, asked in order. -/
def allHold (I : Interp) (frame : Nat) : List Value → Eval Bool
  | [] => pure true
  | form :: rest => do
    if (← I.eval form frame).isTrue then allHold I frame rest else return false

/-- Make rounds until some clause ends the loop.  Sequences are given as what is left of
them, a limit as the number of rounds left. -/
def rounds (I : Interp) (frame : Nat) (spec : LoopSpec) (action : LoopAction) :
    Nat → Option Nat → List (String × List Value) → List Counter → LoopResult → Eval LoopResult
  | 0, _, _, _, r => pure r
  | room + 1, limit, sequences, counters, r => do
    if limit == some 0 || sequences.any (·.2.isEmpty) || counters.any (!·.inRange) then return r
    else
      modifyStore fun s =>
        let s := sequences.foldl (fun s (var, items) => s.defineIn frame var (items.headD .nil)) s
        counters.foldl (fun s c => s.defineIn frame c.var (.int c.value)) s
      assignVariables I frame spec.assigns
      if ← allHold I frame spec.conditions then
        let r ← action.perform I frame r
        rounds I frame spec action room (limit.map (· - 1))
          (sequences.map fun (var, items) => (var, items.drop 1)) (counters.map Counter.advance) r
      else return r

/-- Define the variables that are set once before the first round. -/
def defineWith (I : Interp) (frame : Nat) : List (String × Option Value) → Eval Unit
  | [] => pure ()
  | (var, init) :: rest => do
    let value ← match init with
      | some form => I.eval form frame
      | none => pure .nil
    modifyStore (·.defineIn frame var value)
    defineWith I frame rest

/-- `(cl-loop CLAUSE...)`. -/
def clLoop : SpecialForm := fun I forms frame => do
  let spec ← LoopSpec.ofForms forms
  match spec.action with
  | none => return .nil
  | some action =>
    let frame ← alloc (·.childFrame frame)
    defineWith I frame spec.with_
    let sequences ← spec.sequences.mapM fun (var, form) => do
      return (var, ← sequenceElements (← I.eval form frame))
    let counters ← spec.counts.mapM (·.begin I frame)
    let limit ← match spec.limit with
      | some form => do
        let n ← integer (← I.eval form frame)
        pure (some n.toInt.toNat)
      | none => pure none
    let r ← rounds I frame spec action maxRounds limit sequences counters {}
    match action with
    | .run _ => return r.last
    | .sum _ => return r.total
    | .collect _ => list r.collected.reverse

end EditorLisp.Forms
