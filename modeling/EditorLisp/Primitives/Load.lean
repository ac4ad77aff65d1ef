import EditorLisp.Primitives.File
import EditorLisp.Source.Reader

/-!
# Loading programs and features

Programs are read as a whole before any of their forms is evaluated.  A feature is loaded
once; requiring it again while it is being loaded does nothing.
-/

namespace EditorLisp

/-- The directories that programs are looked for in; `nil` is the default directory. -/
def Session.loadPath (s : Session) : List String :=
  let here := match s.globals.get? "default-directory" with
    | some (.str _ dir) => dir
    | _ => "."
  (s.store.elements ((s.globals.get? "load-path").getD .nil)).filterMap fun
    | .nil => some here
    | .str _ dir => some dir
    | _ => none

def Session.hasFeature (s : Session) (name : String) : Bool := s.features.contains name

def Session.provide (s : Session) (name : String) : Session :=
  if s.hasFeature name then s else { s with features := s.features ++ [name] }

namespace Eval

/-- Evaluate forms at top level, one after the other. -/
def evalForms (I : Interp) : List Value → Eval Unit
  | [] => pure ()
  | form :: rest => do
    let _ ← I.eval form Store.rootFrame
    evalForms I rest

def evalLoaded (I : Interp) (path : String) (data : List Datum) : Eval Value := do
  let forms ← alloc (·.enterAll data)
  let name ← text path
  withDynamic [("load-file-name", name)] (evalForms I forms)
  return .t

/-- Load a file; one that cannot be read or parsed is signalled. -/
def loadFile (I : Interp) (path : String) : Eval Value := do
  match (← session).files.read? path with
  | none => Primitives.fileMissing "Cannot open load file" path
  | some source =>
    match Source.readSource source with
    | .ok data => evalLoaded I path data
    | .error e =>
      let reason ← text e.describe
      signal "invalid-read-syntax" [reason, ← text path]

/-- Load the file that provides a feature unless it is present or being loaded. -/
def requireFeature (I : Interp) (feature : String) (file : Option String) (quiet : Bool) :
    Eval Value := do
  let s ← session
  if s.hasFeature feature || s.loading.contains feature then return .ofName feature
  else
    match s.files.feature? (file.getD feature) s.loadPath with
    | some path =>
      modify fun s => { s with loading := s.loading ++ [feature] }
      let _ ← (loadFile I path).ensuring fun s =>
        { s with loading := s.loading.filter (· ≠ feature) }
      modify (·.provide feature)
      return .ofName feature
    | none =>
      if quiet then return .nil
      else if s.config.assumeFeatures then
        modify (·.provide feature)
        return .ofName feature
      else Primitives.fileMissing "Cannot open load file" feature

end Eval

namespace Primitives

open Eval

/-- `(load FILE &optional NOERROR)`. -/
def load : Primitive := fun I args => do
  between "load" args 1 5
  let name ← string (arg args 0)
  let s ← session
  match s.files.feature? name s.loadPath with
  | some path => loadFile I path
  | none => if flag args 1 then return .nil else fileMissing "Cannot open load file" name

/-- `(require FEATURE &optional FILE NOERROR)`. -/
def require : Primitive := fun I args => do
  between "require" args 1 3
  let feature ← symbolName (arg args 0)
  let file ← string? (given? args 1)
  requireFeature I feature file (flag args 2)

def provide : Primitive := fun _ args => do
  atLeast "provide" args 1
  atMost "provide" args 2
  let feature ← symbolName (arg args 0)
  modify (·.provide feature)
  return arg args 0

def featurep : Primitive := fun _ args => do
  between "featurep" args 1 2
  let feature ← symbolName (arg args 0)
  bool ((← session).hasFeature feature)

def loading : List (String × Primitive) :=
  [("load", load), ("require", require), ("provide", provide), ("featurep", featurep)]

end Primitives

end EditorLisp
