import EditorLisp.Table

/-!
# Conditions

Error conditions form a forest under a root: each has a message and a parent.  A handler
for a condition also handles its descendants.  A definition that would make a condition
its own ancestor is refused, so chains of ancestors end.
-/

namespace EditorLisp

/-- What is known of a condition. -/
structure Condition where
  /-- The condition that it specialises. -/
  parent : Option String
  /-- The text for people. -/
  message : String
deriving Repr, DecidableEq, Inhabited

/-- The conditions of a session. -/
structure Conditions where
  entries : Table String Condition
deriving Repr

namespace Conditions

/-- The condition above all others. -/
def root : String := "error"

/-- The conditions that are there from the start, with parent and message. -/
def standard : List (String × String × String) :=
  [("quit", root, "Quit"),
   ("user-error", root, ""),
   ("wrong-type-argument", root, "Wrong type argument"),
   ("wrong-number-of-arguments", root, "Wrong number of arguments"),
   ("void-variable", root, "Symbol's value as variable is void"),
   ("void-function", root, "Symbol's function definition is void"),
   ("invalid-function", root, "Invalid function"),
   ("args-out-of-range", root, "Args out of range"),
   ("arith-error", root, "Arithmetic error"),
   ("overflow-error", "arith-error", "Arithmetic overflow error"),
   ("invalid-regexp", root, "Invalid regexp"),
   ("search-failed", root, "Search failed"),
   ("file-error", root, "File error"),
   ("file-missing", "file-error", "Cannot open load file"),
   ("setting-constant", root, "Attempt to set a constant symbol"),
   ("excessive-lisp-nesting", root, "Lisp nesting exceeds `max-lisp-eval-depth'"),
   ("end-of-file", root, "End of file during parsing"),
   ("invalid-read-syntax", root, "Invalid read syntax"),
   ("cl-assertion-failed", root, "Assertion failed")]

def initial : Conditions :=
  ⟨Table.ofList ((root, ⟨none, "error"⟩) ::
    standard.map fun (name, parent, message) => (name, ⟨some parent, message⟩))⟩

instance : Inhabited Conditions := ⟨initial⟩

def isDefined (c : Conditions) (name : String) : Bool := c.entries.contains name

def parent? (c : Conditions) (name : String) : Option String := (c.entries.get? name).bind Condition.parent

def message? (c : Conditions) (name : String) : Option String :=
  (c.entries.get? name).map Condition.message

/-- A name and its ancestors, up to the root, an unknown name or a name already seen. -/
def chainFrom (c : Conditions) : Nat → List String → String → List String
  | 0, _, _ => []
  | fuel + 1, seen, name =>
    if name ∈ seen then []
    else
      name :: match c.parent? name with
        | some parent => chainFrom c fuel (name :: seen) parent
        | none => []

/-- A condition followed by its ancestors.  Every name but the last has an entry, so the
counter is never the reason to stop. -/
def chain (c : Conditions) (name : String) : List String :=
  c.chainFrom (c.entries.size + 2) [] name

/-- Why a definition is refused. -/
inductive Refusal where
  /-- The root has no parent and stays as it is. -/
  | rootRedefined
  /-- The condition would be its own ancestor. -/
  | ownAncestor (name : String)
deriving Repr, DecidableEq

/-- The wording of a refusal. -/
def Refusal.message : Refusal → String
  | .rootRedefined => "cannot redefine the root condition"
  | .ownAncestor name => "condition " ++ name ++ " would be its own ancestor"

def define (c : Conditions) (name message parent : String) : Except Refusal Conditions :=
  if name = root then .error .rootRedefined
  else if name = parent ∨ name ∈ c.chain parent then .error (.ownAncestor name)
  else .ok ⟨c.entries.insert name ⟨some parent, message⟩⟩

/-- Whether a handler for `spec` handles a condition; one for `t` handles all. -/
def handles (c : Conditions) (spec condition : String) : Bool :=
  spec == "t" || (c.chain condition).contains spec

end Conditions

end EditorLisp
