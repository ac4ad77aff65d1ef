import EditorLisp.Primitives.Sequence

/-!
# Symbols and types

Type predicates, equality, and the value, function and properties of a symbol.
-/

namespace EditorLisp.Primitives

open Eval

/-! ## Predicates -/

def isKeyword : Value → Bool
  | .keyword _ => true
  | _ => false

def isBoolean : Value → Bool
  | .nil | .t => true
  | _ => false

def isBuffer : Value → Bool
  | .buffer _ => true
  | _ => false

def isCharacter : Value → Bool
  | .int n => 0 ≤ n.toInt && n.toInt ≤ 0x3FFFFF
  | _ => false

def isSubr : Value → Bool
  | .subr _ => true
  | _ => false

/-- Whether a value stands for itself when evaluated as a symbol. -/
def isConstant : Value → Bool
  | .nil | .t | .keyword _ => true
  | _ => false

/-! ## Values of symbols -/

/-- `(symbol-name SYMBOL)`. -/
def symbolNameOf : Primitive := unary "symbol-name" fun v => do text (← symbolName v)

def makeSymbol : Primitive := unary "make-symbol" fun v => do return .ofName (← string v)

def intern : Primitive := fun _ args => do
  between "intern" args 1 2
  return .ofName (← string (arg args 0))

/-- `(intern-soft NAME)`: the symbol, if it has a value, a function or properties. -/
def internSoft : Primitive := fun I args => do
  between "intern-soft" args 1 2
  let name ← match arg args 0 with
    | .str _ name => pure name
    | other => symbolName other
  let s ← session
  let known := s.globals.contains name || s.isCallable I name || s.plists.contains name ||
    name == "nil" || name == "t"
  return if known then .ofName name else .nil

def symbolValue : Primitive := unary "symbol-value" fun v => do
  let name ← symbolName v
  if isConstant v then return v
  else
    match (← session).valueIn? name Store.rootFrame with
    | some value => return value
    | none => signal "void-variable" [v]

def boundp : Primitive := unary "boundp" fun v => do
  if isConstant v then return .t
  else
    let name ← symbolName v
    return .ofBool ((← session).valueIn? name Store.rootFrame).isSome

/-- `(set SYMBOL VALUE)`. -/
def setValue : Primitive := binary "set" fun v value => do
  setVariable (← symbolName v) value Store.rootFrame
  return value

def makunbound : Primitive := unary "makunbound" fun v => do
  let name ← symbolName v
  modify fun s => { s with globals := s.globals.erase name }
  modifyCurrent (·.killLocal name)
  return v

def defaultValue : Primitive := unary "default-value" fun v => do
  match (← session).globals.get? (← symbolName v) with
  | some value => return value
  | none => signal "void-variable" [v]

def setDefault : Primitive := binary "set-default" fun v value => do
  let name ← symbolName v
  modify (·.setGlobal name value)
  return value

def specialVariableP : Primitive := unary "special-variable-p" fun v => do
  let name ← symbolName v
  bool ((← session).isSpecial name)

/-! ## Functions of symbols -/

def symbolFunction : Primitive := fun I args => do
  exactly "symbol-function" args 1
  let name ← symbolName (arg args 0)
  match (← session).functions.get? name with
  | some definition => return definition
  | none => return if I.isPrimitive name then .subr name else .nil

def indirectFunction : Primitive := fun I args => do
  between "indirect-function" args 1 2
  match arg args 0 with
  | .nil => return .nil
  | v =>
    match v.symbolName? with
    | some name => return ((← session).function? I name).getD .nil
    | none => return v

def fboundp : Primitive := fun I args => do
  exactly "fboundp" args 1
  let name ← symbolName (arg args 0)
  bool ((← session).isCallable I name)

def fset : Primitive := binary "fset" fun v definition => do
  let name ← symbolName v
  if v.isNil && definition.isTrue then signal "setting-constant" [.nil]
  else
    defineFunction name definition
    return definition

def fmakunbound : Primitive := unary "fmakunbound" fun v => do
  let name ← symbolName v
  modify fun s => { s with functions := s.functions.erase name }
  return v

def isFunction : Value → Bool
  | .closure _ | .subr _ => true
  | _ => false

/-- `(functionp VALUE)`: a function, a symbol that stands for one, or a lambda list. -/
def functionp : Primitive := fun I args => do
  exactly "functionp" args 1
  match arg args 0 with
  | .symbol name => bool (((← session).function? I name).any isFunction)
  | .cons ref => bool (← headIs (.cons ref) "lambda")
  | v => bool (isFunction v)

def isExpander : Value → Bool
  | .expander _ => true
  | _ => false

def macrop : Primitive := fun I args => do
  exactly "macrop" args 1
  match arg args 0 with
  | .symbol name =>
    let s ← session
    bool (s.functions.contains name && (s.function? I name).any isExpander)
  | v => bool (isExpander v)

/-! ## Properties of symbols -/

def putProperty (key value : Value) : List (Value × Value) → List (Value × Value)
  | [] => [(key, value)]
  | (k, v) :: rest => if k.same key then (k, value) :: rest else (k, v) :: putProperty key value rest

def setProperty (name : String) (key value : Value) : Eval Unit :=
  modify fun s =>
    let plist := (s.plists.get? name).getD []
    { s with plists := s.plists.insert name (putProperty key value plist) }

def put : Primitive := fun _ args => do
  exactly "put" args 3
  let name ← symbolName (arg args 0)
  setProperty name (arg args 1) (arg args 2)
  return arg args 2

def properties (name : String) : Eval (List (Value × Value)) :=
  get fun s => (s.plists.get? name).getD []

/-- `(get SYMBOL KEY)`. -/
def getProperty : Primitive := binary "get" fun v key => do
  let plist ← properties (← symbolName v)
  return ((plist.find? fun e => e.1.same key).map Prod.snd).getD .nil

def symbolPlist : Primitive := unary "symbol-plist" fun v => do
  let plist ← properties (← symbolName v)
  list (plist.flatMap fun (key, value) => [key, value])

/-- Group a list by two; a last key without a value gets `nil`. -/
def pairUp : List Value → List (Value × Value)
  | key :: value :: rest => (key, value) :: pairUp rest
  | [key] => [(key, .nil)]
  | [] => []

def setplist : Primitive := binary "setplist" fun v plist => do
  let name ← symbolName v
  let items ← properList plist
  modify fun s => { s with plists := s.plists.insert name (pairUp items) }
  return plist

def symbols : List (String × Primitive) :=
  [("null", predicate "null" Value.isNil), ("not", predicate "not" Value.isNil),
   ("eq", binary "eq" fun a b => bool (a.same b)),
   ("eql", binary "eql" fun a b => bool (a.sameNumber b)),
   ("equal", binary "equal" fun a b => do bool ((← store).equal a b)),
   ("identity", unary "identity" pure), ("ignore", fun _ _ => pure .nil),
   ("stringp", predicate "stringp" Value.isString),
   ("symbolp", predicate "symbolp" Value.isSymbol),
   ("keywordp", predicate "keywordp" isKeyword),
   ("booleanp", predicate "booleanp" isBoolean),
   ("consp", predicate "consp" Value.isCons), ("listp", predicate "listp" Value.isList),
   ("nlistp", predicate "nlistp" fun v => !v.isList), ("atom", predicate "atom" fun v => !v.isCons),
   ("vectorp", predicate "vectorp" isVector), ("arrayp", predicate "arrayp" isArray),
   ("sequencep", predicate "sequencep" fun v => isArray v || v.isList),
   ("bufferp", predicate "bufferp" isBuffer), ("characterp", predicate "characterp" isCharacter),
   ("subrp", predicate "subrp" isSubr),
   ("type-of", unary "type-of" fun v => pure (.ofName v.typeName)),
   ("symbol-name", symbolNameOf), ("make-symbol", makeSymbol),
   ("intern", intern), ("intern-soft", internSoft),
   ("symbol-value", symbolValue), ("boundp", boundp), ("set", setValue),
   ("makunbound", makunbound), ("default-value", defaultValue), ("set-default", setDefault),
   ("special-variable-p", specialVariableP),
   ("symbol-function", symbolFunction), ("indirect-function", indirectFunction),
   ("fboundp", fboundp), ("fset", fset), ("fmakunbound", fmakunbound),
   ("functionp", functionp), ("macrop", macrop),
   ("put", put), ("get", getProperty), ("symbol-plist", symbolPlist), ("setplist", setplist)]

end EditorLisp.Primitives
