import EditorLisp.Store.Printer

/-!
# Ways out of an evaluation

An evaluation that does not return a value leaves by a signal, a throw, a wrong number of
arguments, a value of the wrong kind, or a call of something that is not there.  This
module names the causes and words them.
-/

namespace EditorLisp

/-- A wrong number of arguments. -/
structure ArityError where
  /-- The name of the function, if it has one. -/
  function : Option String
  minimum : Nat
  /-- The greatest number of arguments, if there is one. -/
  maximum : Option Nat
  received : Nat
deriving Repr, DecidableEq, Inhabited

namespace ArityError

def isExact (e : ArityError) : Bool := e.maximum == some e.minimum

/-- What was expected, in words. -/
def expected (e : ArityError) : String :=
  if e.isExact then "exactly " ++ toString e.minimum
  else
    match e.maximum with
    | some maximum => toString e.minimum ++ " to " ++ toString maximum
    | none => "at least " ++ toString e.minimum

/-- The wording of the error. -/
def message (e : ArityError) : String :=
  e.function.getD "lambda" ++ ": expected " ++ e.expected ++ ", received " ++ toString e.received

end ArityError

/-- A way out of an evaluation other than a value. -/
inductive Flow where
  /-- A condition was signalled. -/
  | signal (condition : String) (data : Value)
  /-- A throw is looking for its catch. -/
  | throw (tag value : Value)
  /-- A function was called with a wrong number of arguments. -/
  | arity (error : ArityError)
  /-- A value is not of the kind that a predicate names. -/
  | wrongType (predicate : String) (got : Value)
  /-- A name was called that stands for nothing. -/
  | unimplemented (name : String)
deriving Repr, Inhabited

namespace Flow

def message (store : Store) : Flow → String
  | .signal condition data => condition ++ ": " ++ store.print data
  | .throw tag value => "no catch for tag: " ++ store.print tag ++ ", " ++ store.print value
  | .arity error => error.message
  | .wrongType predicate got => "wrong type argument: " ++ predicate ++ ", " ++ store.print got
  | .unimplemented name => "feature not implemented: " ++ name

/-- The condition under which handlers see it.  A missing function is seen by none. -/
def condition? : Flow → Option String
  | .signal condition _ => some condition
  | .throw _ _ => some "throw"
  | .arity _ => some "wrong-number-of-arguments"
  | .wrongType _ _ => some "wrong-type-argument"
  | .unimplemented _ => none

/-- The list of condition and data that a handler gets.  A signal without data has the name
of its condition, as a string, in their place. -/
def record (flow : Flow) (s : Store) : Value × Store :=
  let (data, s) :=
    match flow with
    | .signal condition .nil => s.text condition
    | .signal _ data => (data, s)
    | .throw tag value => s.list [tag, value]
    | .arity error => s.list [(error.function.map Value.ofName).getD .nil, .ofNat error.received]
    | .wrongType predicate got => s.list [.ofName predicate, got]
    | .unimplemented _ => (.nil, s)
  s.list [.ofName (flow.condition?.getD "nil"), data]

end Flow

end EditorLisp
