import EditorLisp.Primitives.Keymap
import EditorLisp.Primitives.Symbol

/-!
# Modes, keymap variables and menus

Forms that define modes.  A mode command is an ordinary interactive function whose body is
put together from the parts of the definition, so it is called, aliased and invoked like
any other.  A major mode remembers its parent in a property of its name.
-/

namespace EditorLisp.Forms

open Eval Primitives

def parentProperty : String := "derived-mode-parent"

def menuProperty : String := "easy-menu"

/-- The number of ancestors of a mode that are looked at. -/
def ancestorLimit : Nat := 65

/-- Declare a variable special and give it a global value unless it has one. -/
def declareWith (name : String) (value : Value) : Eval Unit :=
  modify fun s =>
    let s := s.declareSpecial name
    if s.globals.contains name then s else s.setGlobal name value

/-- Split leading pairs of a keyword and a form from the forms after them.  The keywords
come without their colons. -/
def splitOptions : List Value → List (String × Value) × List Value
  | .keyword key :: form :: rest =>
    let (options, body) := splitOptions rest
    (((key.dropWhile ':').toString, form) :: options, body)
  | rest => ([], rest)

def option? (options : List (String × Value)) (key : String) : Option Value :=
  (options.find? (·.1 == key)).map Prod.snd

def callForm (function : String) (args : List Value) : Eval Value := list (.ofName function :: args)

/-- Make a quoted form. -/
def quoted (v : Value) : Eval Value := callForm "quote" [v]

def defineCommand (name : String) (params : Value) (body : List Value) (frame : Nat) :
    Eval Value := do
  let spec ← list (params :: body)
  let command ← makeClosure spec frame (some name)
  modify fun s => { s with functions := s.functions.insert name command }
  return .ofName name

/-- The call of the parent of a mode, if it has one that is defined by then. -/
def parentCall (parent : Value) : Eval (List Value) := do
  if parent.isTrue then
    let test ← callForm "fboundp" [← quoted parent]
    return [← callForm "if" [test, ← list [parent]]]
  else return []

def defineDerivedMode : SpecialForm := fun _ forms frame => do
  formArity "define-derived-mode" forms 3 none
  let mode := forms.getD 0 .nil
  let name ← symbolName mode
  let parent := forms.getD 1 .nil
  if parent.isTrue then
    let _ ← symbolName parent
  let rest := match forms.drop 3 with
    | .str _ _ :: form :: more => form :: more
    | rest => rest
  let (_, body) := splitOptions rest
  let hook := name ++ "-hook"
  let map := Value.ofName (name ++ "-map")
  declareWith hook .nil
  declareWith (name ++ "-map") (← newKeymap {})
  if parent.isTrue then setProperty name (.ofName parentProperty) parent
  let start ← callForm "interactive" []
  let inherited ← parentCall parent
  let setMode ← callForm "setq-local" [.ofName "major-mode", ← quoted (.ofName name)]
  let setName ← callForm "setq-local" [.ofName "mode-name", forms.getD 2 .nil]
  let test ← callForm "keymapp" [map]
  let useMap ← callForm "if" [test, ← callForm "use-local-map" [map]]
  let runHooks ← callForm "run-mode-hooks" [← quoted (.ofName hook)]
  defineCommand name .nil
    (start :: inherited ++ setMode :: setName :: useMap :: body ++ [runHooks]) frame

/-- The form that computes the new state of a minor mode from its argument: toggled by
`nil` and `toggle`, else on for a positive number. -/
def newState (mode : Value) : Eval Value := do
  let arg := Value.ofName "arg"
  let missing ← callForm "null" [arg]
  let toggle ← callForm "or" [missing, ← callForm "eq" [arg, ← quoted (.ofName "toggle")]]
  let flipped ← callForm "not" [mode]
  let positive ← callForm ">" [← callForm "prefix-numeric-value" [arg], .int 0]
  callForm "if" [toggle, flipped, positive]

def defineMinorMode : SpecialForm := fun I forms frame => do
  formArity "define-minor-mode" forms 1 none
  let name ← symbolName (forms.getD 0 .nil)
  let rest := match forms.drop 1 with
    | .str _ _ :: rest => rest
    | rest => rest
  let (options, body) := splitOptions rest
  let init ← match option? options "init-value" with
    | some form => I.eval form frame
    | none => pure .nil
  declareWith name init
  let hook := name ++ "-hook"
  declareWith hook .nil
  match option? options "keymap" with
  | some form => declareWith (name ++ "-map") (← I.eval form frame)
  | none => pure ()
  let mode := Value.ofName name
  let start ← callForm "interactive" []
  let setMode ← callForm "setq" [mode, ← newState mode]
  let runHooks ← callForm "run-hooks" [← quoted (.ofName hook)]
  let params ← list [.ofName "&optional", .ofName "arg"]
  defineCommand name params (start :: setMode :: body ++ [runHooks, mode]) frame

/-- The settings of a keymap under construction. -/
structure KeymapOptions where
  full : Bool := false
  parent : Value := .nil

/-- Evaluate the options of a keymap in order; unknown ones are skipped. -/
def keymapOptions (I : Interp) (frame : Nat) :
    List (String × Value) → KeymapOptions → Eval KeymapOptions
  | [], o => pure o
  | (key, form) :: rest, o => do
    if key = "full" then
      let value ← I.eval form frame
      keymapOptions I frame rest { o with full := value.isTrue }
    else if key = "parent" then
      let value ← I.eval form frame
      keymapOptions I frame rest { o with parent := value }
    else keymapOptions I frame rest o

def bindKeys (I : Interp) (frame : Nat) (map : Value) : List Value → Eval Unit
  | keyForm :: form :: rest => do
    let spec ← I.eval keyForm frame
    let key ← match spec with
      | .str _ text => pure (Key.describe text)
      | other => requireKey other
    let definition ← I.eval form frame
    let _ ← bindKey map key definition
    bindKeys I frame map rest
  | _ => pure ()

def defvarKeymap : SpecialForm := fun I forms frame => do
  formArity "defvar-keymap" forms 1 none
  let name ← symbolName (forms.getD 0 .nil)
  let (options, pairs) := splitOptions (forms.drop 1)
  let o ← keymapOptions I frame options {}
  if pairs.length % 2 ≠ 0 then
    error ("defvar-keymap " ++ name ++ ": odd number of key/definition forms")
  else
    let base : Keymap := if o.full then .full else {}
    let map ← newKeymap { base with parent := if o.parent.isTrue then some o.parent else none }
    bindKeys I frame map pairs
    declareWith name map
    return .ofName name

/-- `(easy-menu-define SYMBOL MAPS DOC MENU)`: the menu is kept and never shown. -/
def easyMenuDefine : SpecialForm := fun I forms frame => do
  formArity "easy-menu-define" forms 4 none
  let name ← symbolName (forms.getD 0 .nil)
  let _ ← I.eval (forms.getD 1 .nil) frame
  let menu ← I.eval (forms.getD 3 .nil) frame
  setProperty name (.ofName menuProperty) menu
  declareWith name menu
  return .nil

end EditorLisp.Forms

namespace EditorLisp.Primitives

open Eval Forms

def parentMode? (s : Session) (mode : String) : Option String := do
  let plist ← s.plists.get? mode
  let entry ← plist.find? fun e => e.1.isNamed parentProperty
  entry.2.symbolName?

/-- The first of a mode and its ancestors that is wanted. -/
def wantedAncestor? (s : Session) (wanted : List String) : Nat → Option String → Option String
  | fuel + 1, some mode =>
    if wanted.contains mode then some mode else wantedAncestor? s wanted fuel (parentMode? s mode)
  | _, _ => none

/-- `(derived-mode-p MODE...)`: the mode that the current major mode is or derives from. -/
def derivedModeP : Primitive := fun _ args => do
  atLeast "derived-mode-p" args 1
  let wanted ← match args with
    | [.cons ref] => pure ((← list? (.cons ref)).getD [])
    | args => pure args
  let names ← wanted.mapM symbolName
  let s ← session
  let current := (s.valueIn? "major-mode" Store.rootFrame).bind Value.symbolName?
  return ((wantedAncestor? s names ancestorLimit current).map Value.ofName).getD .nil

def modes : List (String × Primitive) := [("derived-mode-p", derivedModeP)]

end EditorLisp.Primitives
