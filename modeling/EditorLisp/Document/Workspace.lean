import EditorLisp.Document.Buffer
import EditorLisp.Document.Windows
import EditorLisp.Store.Basic

/-!
# The workspace

All buffers and windows of a session.  Buffers have unique names; the current buffer is
the one that the selected window shows.  Whenever the selection or the buffer it shows has
gone, `ensureSelected` repairs it: first any open window is taken, then a new one, and a
buffer that is gone is replaced by the scratch buffer.
-/

namespace EditorLisp

/-- The name of the buffer that is made when no other one is left. -/
def scratchName : String := "*scratch*"

/-- The buffers and windows of a session. -/
structure Workspace where
  /-- The buffers by number. -/
  buffers : Table Nat Buffer := {}
  /-- The number of each buffer, by name. -/
  byName : Table String Nat := {}
  /-- The number of the next new buffer. -/
  nextId : Nat := 1
  /-- The windows. -/
  windows : Windows := {}
deriving Inhabited

namespace Workspace

/-! ## Finding and making buffers -/

def insertNew (w : Workspace) (name : String) : Nat × Workspace :=
  (w.nextId,
    { w with
      buffers := w.buffers.insert w.nextId { id := w.nextId, name }
      byName := w.byName.insert name w.nextId
      nextId := w.nextId + 1 })

def find? (w : Workspace) (name : String) : Option Nat := w.byName.get? name

/-- The buffer of a name, made if there is none. -/
def getOrCreate (w : Workspace) (name : String) : Nat × Workspace :=
  match w.find? name with
  | some id => (id, w)
  | none => w.insertNew name

/-- A name with a number in angle brackets. -/
def numberedName (base : String) (n : Nat) : String := base ++ "<" ++ toString n ++ ">"

/-- The first free numbered name from a number on; one of as many candidates as there are
buffers, and one more, is free. -/
def freeName (w : Workspace) (base : String) : Nat → Nat → String
  | 0, _ => base
  | fuel + 1, n =>
    if w.byName.contains (numberedName base n) then freeName w base fuel (n + 1)
    else numberedName base n

/-- A name that no buffer has: the given one, or the first free one with a number. -/
def newName (w : Workspace) (base : String) : String :=
  if w.byName.contains base then w.freeName base (w.byName.size + 1) 2 else base

def generate (w : Workspace) (base : String) : Nat × Workspace :=
  w.insertNew (w.newName (if base.isEmpty then "*buffer*" else base))

def buffer? (w : Workspace) (id : Nat) : Option Buffer := w.buffers.get? id

def isLive (w : Workspace) (id : Nat) : Bool := w.buffers.contains id

def modifyBuffer (w : Workspace) (id : Nat) (f : Buffer → Buffer) : Workspace :=
  { w with buffers := w.buffers.modify id f }

def bufferList (w : Workspace) : List Nat := w.byName.values

def bufferName? (w : Workspace) (id : Nat) : Option String := (w.buffer? id).map Buffer.name

/-- Rename a buffer; refused when another one has the name. -/
def rename? (w : Workspace) (id : Nat) (name : String) : Option Workspace :=
  match w.find? name with
  | some holder => if holder = id then some w else none
  | none =>
    (w.buffer? id).map fun b =>
      { w with
        buffers := w.buffers.insert id { b with name }
        byName := (w.byName.erase b.name).insert name id }

/-! ## The current buffer -/

/-- A selected window, opened on the scratch buffer if there is none. -/
def ensureWindow (w : Workspace) : Nat × Workspace :=
  match w.windows.selected? with
  | some win => (win, w)
  | none =>
    match w.windows.first? with
    | some win => (win, { w with windows := { w.windows with selection := some win } })
    | none =>
      let (scratch, w) := w.getOrCreate scratchName
      let (win, windows) := w.windows.create scratch
      (win, { w with windows := { windows with selection := some win } })

/-- Repair the selection so that it names an open window on a live buffer. -/
def ensureSelected (w : Workspace) : Nat × Workspace :=
  let (win, w) := w.ensureWindow
  if (w.windows.buffer? win).any w.isLive then (win, w)
  else
    let (scratch, w) := w.getOrCreate scratchName
    (win, { w with windows := { w.windows with shown := w.windows.shown.insert win scratch } })

/-- The workspace of a new session: the scratch buffer in one selected window. -/
def initial : Workspace := (ensureSelected {}).2

/-- The current buffer's number, after repair. -/
def current (w : Workspace) : Nat × Workspace :=
  let (win, w) := w.ensureSelected
  match w.windows.buffer? win with
  | some id => (id, w)
  | none => w.getOrCreate scratchName

/-- The current buffer as things stand, without repair. -/
def current? (w : Workspace) : Option Buffer := do
  let win ← w.windows.selected?
  let id ← w.windows.buffer? win
  w.buffer? id

/-- Show a buffer in the selected window; refused for a dead one. -/
def setCurrent? (w : Workspace) (id : Nat) : Option Workspace :=
  if w.isLive id then
    let (win, w) := w.ensureSelected
    (w.windows.setBuffer? win id).map fun windows => { w with windows }
  else none

/-- Show a buffer in the selected window if it is alive. -/
def setCurrent (w : Workspace) (id : Nat) : Workspace := (w.setCurrent? id).getD w

/-- Make the buffer of a name current, and the buffer if there is none. -/
def switchTo (w : Workspace) (name : String) : Nat × Workspace :=
  let (id, w) := w.getOrCreate name
  (id, w.setCurrent id)

/-- Kill a buffer.  Windows that show it go to the scratch buffer; after the last buffer
a first window and buffer are made anew. -/
def kill? (w : Workspace) (id : Nat) : Option Workspace :=
  (w.buffer? id).map fun b =>
    let w := { w with buffers := w.buffers.erase id, byName := w.byName.erase b.name }
    if w.buffers.isEmpty then
      let windows := w.windows.ids.foldl Windows.delete w.windows
      (ensureSelected { w with windows }).2
    else
      let (scratch, w) := w.getOrCreate scratchName
      (ensureSelected { w with windows := w.windows.retarget id scratch }).2

/-- Put a buffer out of sight if it is current. -/
def bury (w : Workspace) (id : Nat) : Workspace :=
  let (current, w) := w.current
  if current = id then
    let (scratch, w) := w.getOrCreate scratchName
    w.setCurrent scratch
  else w

/-! ## Windows -/

/-- Select a window; refused for one that is not open. -/
def selectWindow? (w : Workspace) (win : Nat) : Option Workspace :=
  (w.windows.select? win).map fun windows => { w with windows }

/-- Select a window if it is open. -/
def selectWindow (w : Workspace) (win : Nat) : Workspace := (w.selectWindow? win).getD w

def windowBuffer? (w : Workspace) (win : Nat) : Option Nat := w.windows.buffer? win

def setWindowBuffer? (w : Workspace) (win buffer : Nat) : Option Workspace :=
  if w.isLive buffer then (w.windows.setBuffer? win buffer).map fun windows => { w with windows }
  else none

/-- A window that shows a buffer, the selected one if it does. -/
def windowShowing? (w : Workspace) (buffer : Nat) : Option Nat :=
  match w.windows.selected? with
  | some win => if w.windowBuffer? win = some buffer then some win else w.windows.showing? buffer
  | none => w.windows.showing? buffer

def splitWindow? (w : Workspace) (win : Nat) : Option (Nat × Workspace) :=
  (w.windowBuffer? win).map fun buffer =>
    let (win, windows) := w.windows.create buffer
    (win, { w with windows })

/-- Close a window; the last one cannot be closed. -/
def deleteWindow? (w : Workspace) (win : Nat) : Option Workspace :=
  if w.windows.count ≤ 1 ∨ !w.windows.isLive win then none
  else some (ensureSelected { w with windows := w.windows.delete win }).2

/-- Close all windows but one, which is then selected. -/
def deleteOtherWindows (w : Workspace) (keep : Nat) : Workspace :=
  if w.windows.isLive keep then
    let windows := (w.windows.ids.filter (· ≠ keep)).foldl Windows.delete w.windows
    { w with windows := { windows with selection := some keep } }
  else w

/-! ## Remembered layouts -/

def capture (w : Workspace) : Layout × Workspace :=
  let (selected, w) := w.ensureSelected
  let windows := w.windows.shown.entries.filterMap fun (win, buffer) =>
    (w.bufferName? buffer).map fun name => (win, name)
  (⟨selected, windows⟩, w)

/-- Open one remembered window again, on the buffer that now has the remembered name. -/
def restoreWindow (w : Workspace) (win : Nat) (name : String) : Workspace :=
  let (buffer, w) := w.getOrCreate name
  { w with
    windows := if w.windows.isLive win then
        { w.windows with shown := w.windows.shown.insert win buffer }
      else w.windows.createWithId win buffer }

/-- Bring a remembered layout back; other windows stay as they are. -/
def restore (w : Workspace) (layout : Layout) : Workspace :=
  let w := layout.windows.foldl (fun w e => w.restoreWindow e.1 e.2) w
  (ensureSelected (w.selectWindow layout.selected)).2

end Workspace

end EditorLisp
