import EditorLisp.Primitives.List

/-!
# Features without a model

Text properties, faces, undo, syntax tables, the minibuffer and the display are not kept.
Their primitives take their usual arguments and answer as an editor would that has nothing
to show.
-/

namespace EditorLisp.Primitives

open Eval

/-- Names that answer `nil` to any arguments. -/
def silentNames : List String :=
  ["put-text-property", "add-text-properties", "set-text-properties", "remove-text-properties",
   "remove-list-of-text-properties", "add-face-text-property", "remove-overlays",
   "set-face-attribute", "set-face-foreground", "set-face-background", "redisplay",
   "force-mode-line-update", "set-window-dedicated-p", "recenter", "set-window-start",
   "buffer-disable-undo", "buffer-enable-undo", "undo-boundary", "primitive-undo",
   "auto-fill-mode", "turn-on-auto-fill", "turn-off-auto-fill", "fill-region-as-paragraph",
   "lpr-print-region", "modify-syntax-entry", "set-syntax-table", "modify-frame-parameters",
   "set-frame-selected-window", "select-frame", "make-obsolete", "make-obsolete-variable",
   "input-pending-p", "called-interactively-p", "display-graphic-p", "display-images-p",
   "frame-parameter", "get-text-property", "text-properties-at", "ding", "beep", "sleep-for"]

def agreeableNames : List String :=
  ["sit-for", "y-or-n-p", "yes-or-no-p", "display-color-p", "frame-visible-p", "facep"]

def screenArea : List Value := [.int 0, .int 0, .int 80, .int 24]

/-- A primitive with at most some arguments, all ignored. -/
def ignoring (name : String) (maximum : Nat) (answer : Eval Value) : Primitive := fun _ args => do
  atMost name args maximum
  answer

/-- `(next-single-property-change POSITION PROPERTY &optional OBJECT LIMIT)`: the limit,
as nothing has properties. -/
def nextSinglePropertyChange : Primitive := fun _ args => do
  between "next-single-property-change" args 2 4
  return arg args 3

def faceAttribute : Primitive := fun _ args => do
  between "face-attribute" args 2 4
  return .symbol "unspecified"

/-- `(make-face NAME)` and `(copy-face OLD NEW)`: the name. -/
def makeFace : Primitive := fun _ args => do
  between "make-face" args 1 4
  let name := args.getD 1 (arg args 0)
  let _ ← symbolName name
  return name

/-- `(read-string PROMPT &optional INITIAL)`: nobody types, so the answer is what was
there. -/
def readString : Primitive := fun _ args => do
  between "read-string" args 1 7
  match arg args 1 with
  | .str id s => return .str id s
  | .cons ref => car (.cons ref)
  | _ => text ""

def monitorAttributes : Eval Value := do
  let geometry ← list screenArea
  let workarea ← list screenArea
  list [← cons (.symbol "geometry") geometry, ← cons (.symbol "workarea") workarea]

def makeBoolVector : Primitive := binary "make-bool-vector" fun n v => do
  vector (List.replicate (← elementCount n) (.ofBool v.isTrue))

def prefixNumericValue : Primitive := unary "prefix-numeric-value" fun v => do
  match v with
  | .int n => return .int n
  | .symbol "-" => return .int (-1)
  | .cons ref =>
    match ← car (.cons ref) with
    | .int n => return .int n
    | _ => return .int 1
  | _ => return .int 1

/-- `(vertical-motion LINES)`: lines never wrap; the answer is how many were moved. -/
def verticalMotion : Primitive := fun _ args => do
  between "vertical-motion" args 1 3
  let spec := arg args 0
  let tail ← cdr spec
  let lines ← integer (if spec.isCons then tail else spec)
  let id ← currentId
  let missed := (← onBuffer id fun b => (b.forwardLine lines.toInt).swap).getD 0
  -- What was missed is a word too, and it is added back with the sign of the count.
  let missed := (Int64.ofNat missed).toInt
  return .int (← granted do
    Number.fixed? (lines.toInt - (← Number.fixed? (missed * lines.toInt.sign)).toInt))

def getScratchBufferCreate : Primitive := fun _ args => do
  exactly "get-scratch-buffer-create" args 0
  return .buffer (← onWorkspace (·.getOrCreate scratchName))

def defineObsoleteFunctionAlias : Primitive := fun _ args => do
  between "define-obsolete-function-alias" args 2 4
  let name ← symbolName (arg args 0)
  defineFunction name (arg args 1)
  return arg args 0

/-- The primitives of features without a model, by name. -/
def inert : List (String × Primitive) :=
  [("next-single-property-change", nextSinglePropertyChange), ("face-attribute", faceAttribute),
   ("make-face", makeFace), ("copy-face", makeFace),
   ("read-string", readString), ("read-from-minibuffer", readString),
   ("line-pixel-height", fun _ args => do
      exactly "line-pixel-height" args 0
      return .int 1),
   ("window-body-pixel-edges", ignoring "window-body-pixel-edges" 1 (list screenArea)),
   ("window-frame", ignoring "window-frame" 1 (pure (.symbol "F1"))),
   ("frame-monitor-attributes", ignoring "frame-monitor-attributes" 1 monitorAttributes),
   ("make-syntax-table", ignoring "make-syntax-table" 1 (vector [])),
   ("make-bool-vector", makeBoolVector), ("obarray-make", ignoring "obarray-make" 1 (vector [])),
   ("prefix-numeric-value", prefixNumericValue), ("vertical-motion", verticalMotion),
   ("get-scratch-buffer-create", getScratchBufferCreate),
   ("define-obsolete-function-alias", defineObsoleteFunctionAlias)] ++
  silentNames.map (fun name => (name, fun _ _ => pure .nil)) ++
  agreeableNames.map (fun name => (name, fun _ _ => pure .t))

end EditorLisp.Primitives
