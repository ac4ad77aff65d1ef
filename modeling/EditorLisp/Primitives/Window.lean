import EditorLisp.Primitives.List

/-!
# Windows and the frame

Windows show buffers and share the point of the buffer they show.  There is one frame, of
a fixed size.
-/

namespace EditorLisp.Primitives

open Eval

def frameWidth : Int64 := 80

def frameHeight : Int64 := 24

def theFrame : Value := .symbol "F1"

def selectedWindow : Eval Nat := onWorkspace (·.ensureSelected)

/-- The open window that a value stands for, the selected one for `nil`. -/
def openWindow (v : Value) : Eval Nat := do
  match v with
  | .nil => selectedWindow
  | .window win => if (← workspace).windows.isLive win then pure win else wrongType "window-live-p" v
  | other => wrongType "window-live-p" other

def shownBuffer (win : Nat) : Eval Nat := do
  match (← workspace).windowBuffer? win with
  | some id => return id
  | none => wrongType "window-live-p" (.window win)

def onWindow (name : String) (maximum : Nat) (f : Nat → Eval Value) : Primitive := fun _ args => do
  atMost name args maximum
  f (← openWindow (arg args 0))

def selectedWindowOf : Primitive := fun _ args => do
  exactly "selected-window" args 0
  return .window (← selectedWindow)

def selectWindow : Primitive := fun _ args => do
  between "select-window" args 1 2
  let win ← openWindow (arg args 0)
  modifyWorkspace (·.selectWindow win)
  return .window win

def setWindowBuffer : Primitive := fun _ args => do
  between "set-window-buffer" args 2 3
  let win ← openWindow (arg args 0)
  let buffer ← liveBuffer (arg args 1)
  modifyWorkspace fun w => (w.setWindowBuffer? win buffer).getD w
  return .nil

/-- `(get-buffer-window &optional BUFFER)`; a buffer that is not there has no window. -/
def getBufferWindow : Primitive := fun _ args => do
  between "get-buffer-window" args 0 2
  let w ← workspace
  let buffer? ← match arg args 0 with
    | .buffer id => pure (if w.isLive id then some id else none)
    | .str _ name => pure (w.find? name)
    | other => do pure (some (← liveBuffer other))
  return ((buffer?.bind (← workspace).windowShowing?).map Value.window).getD .nil

/-- A list turned so that an item comes first. -/
def startingAt (item : Nat) (items : List Nat) : List Nat :=
  let before := items.takeWhile (· ≠ item)
  if before.length = items.length then items else items.drop before.length ++ before

/-- `(window-list)`: from the selected window on. -/
def windowList : Primitive := fun _ args => do
  atMost "window-list" args 3
  let selected ← selectedWindow
  list ((startingAt selected (← workspace).windows.ids).map Value.window)

def windowLiveP : Primitive := unary "window-live-p" fun v => do
  match v with
  | .window win => bool ((← workspace).windows.isLive win)
  | _ => return .nil

def ofShown (win : Nat) (f : Buffer → Nat) : Eval Value := do
  let id ← shownBuffer win
  return .ofNat ((((← workspace).buffer? id).map f).getD 0 + 1)

def setWindowPoint : Primitive := binary "set-window-point" fun v pos => do
  let win ← openWindow v
  let id ← shownBuffer win
  let offset := (← below (← integer pos)).toInt.toNat
  let landed ← onBuffer id fun b =>
    let b := b.goto offset
    (b.point, b)
  return .ofNat (landed.getD 0 + 1)

def splitWindow (win : Nat) : Eval Value := do
  match (← workspace).splitWindow? win with
  | some (created, w) =>
    modifyWorkspace fun _ => w
    return .window created
  | none => error "Window too small for splitting"

def deleteWindow (win : Nat) : Eval Value := do
  match (← workspace).deleteWindow? win with
  | some w =>
    modifyWorkspace fun _ => w
    return .nil
  | none => error "Attempt to delete minibuffer or sole ordinary window"

/-- Close all windows but one. -/
def deleteOtherWindows (win : Nat) : Eval Value := do
  modifyWorkspace (·.deleteOtherWindows win)
  return .nil

def currentWindowConfiguration : Primitive := fun _ args => do
  atMost "current-window-configuration" args 1
  let layout ← onWorkspace (·.capture)
  alloc (·.addLayout layout)

def setWindowConfiguration : Primitive := fun _ args => do
  between "set-window-configuration" args 1 3
  match (← store).layout? (arg args 0) with
  | some layout =>
    modifyWorkspace (·.restore layout)
    return .t
  | none => wrongType "window-configuration-p" (arg args 0)

def isWindow : Value → Bool
  | .window _ => true
  | _ => false

/-- Whether a value is a remembered layout. -/
def isLayout : Value → Bool
  | .layout _ => true
  | _ => false

def frameFact (name : String) (maximum : Nat) (answer : Eval Value) : Primitive := fun _ args => do
  if maximum = 0 then exactly name args 0 else atMost name args maximum
  answer

def windows : List (String × Primitive) :=
  let width := onWindow "window-width" 2 fun _ => pure (.int frameWidth)
  let height := onWindow "window-height" 2 fun _ => pure (.int frameHeight)
  let split := onWindow "split-window" 4 splitWindow
  let frames := frameFact "visible-frame-list" 0 (list [theFrame])
  [("selected-window", selectedWindowOf), ("minibuffer-selected-window", selectedWindowOf),
   ("select-window", selectWindow),
   ("window-buffer", onWindow "window-buffer" 1 fun win => do return .buffer (← shownBuffer win)),
   ("set-window-buffer", setWindowBuffer), ("get-buffer-window", getBufferWindow),
   ("window-list", windowList), ("window-live-p", windowLiveP),
   ("windowp", predicate "windowp" isWindow),
   ("window-point", onWindow "window-point" 1 fun win => ofShown win Buffer.point),
   ("set-window-point", setWindowPoint),
   ("window-start", onWindow "window-start" 1 fun _ => pure (.int 1)),
   ("window-end", onWindow "window-end" 2 fun win => ofShown win Buffer.size),
   ("window-width", width), ("window-body-width", width), ("window-total-width", width),
   ("window-max-chars-per-line", width),
   ("window-height", height), ("window-body-height", height), ("window-total-height", height),
   ("split-window", split), ("split-window-vertically", split),
   ("delete-window", onWindow "delete-window" 1 deleteWindow),
   ("delete-other-windows", onWindow "delete-other-windows" 2 deleteOtherWindows),
   ("current-window-configuration", currentWindowConfiguration),
   ("set-window-configuration", setWindowConfiguration),
   ("window-configuration-p", predicate "window-configuration-p" isLayout),
   ("selected-frame", frameFact "selected-frame" 0 (pure theFrame)),
   ("frame-width", frameFact "frame-width" 1 (pure (.int frameWidth))),
   ("frame-height", frameFact "frame-height" 1 (pure (.int frameHeight))),
   ("frame-selected-window",
    frameFact "frame-selected-window" 1 do return .window (← selectedWindow)),
   ("visible-frame-list", frames), ("frame-list", frames)]

end EditorLisp.Primitives
