import EditorLisp.Number.Power
import EditorLisp.Table

/-!
# Windows

Windows are numbered and each shows one buffer, named by number.  At most one window is
selected.  The selection is remembered by number, so it can outlive its window; it then
counts as no selection.
-/

namespace EditorLisp

/-- The windows and which of them is selected. -/
structure Windows where
  /-- The buffer that each window shows. -/
  shown : Table Nat Nat := {}
  /-- The window last selected. -/
  selection : Option Nat := none
  /-- The number of the next new window. -/
  nextId : Nat := 1
deriving Repr, Inhabited

namespace Windows

def create (w : Windows) (buffer : Nat) : Nat × Windows :=
  (w.nextId, { w with shown := w.shown.insert w.nextId buffer, nextId := w.nextId + 1 })

def createWithId (w : Windows) (id buffer : Nat) : Windows :=
  { w with
    shown := w.shown.insert id buffer
    nextId := if w.nextId ≤ id then id + 1 else w.nextId }

/-- The windows, as long as there is a machine word left to number the next one. -/
def countable? (w : Windows) : Option Windows :=
  if w.nextId < Number.twoTo 64 then some w else none

def buffer? (w : Windows) (id : Nat) : Option Nat := w.shown.get? id

def isLive (w : Windows) (id : Nat) : Bool := w.shown.contains id

/-- The selected window, if it is open. -/
def selected? (w : Windows) : Option Nat := w.selection.filter w.isLive

/-- Select a window; refused for one that is not open. -/
def select? (w : Windows) (id : Nat) : Option Windows :=
  if w.isLive id then some { w with selection := some id } else none

/-- The open window with the least number. -/
def first? (w : Windows) : Option Nat := w.shown.keys.head?

/-- Show another buffer in a window; refused for one that is not open. -/
def setBuffer? (w : Windows) (id buffer : Nat) : Option Windows :=
  if w.isLive id then some { w with shown := w.shown.insert id buffer } else none

def delete (w : Windows) (id : Nat) : Windows :=
  { w with
    shown := w.shown.erase id
    selection := if w.selection = some id then none else w.selection }

/-- The open windows in order. -/
def ids (w : Windows) : List Nat := w.shown.keys

def count (w : Windows) : Nat := w.shown.size

/-- The first window that shows a buffer. -/
def showing? (w : Windows) (buffer : Nat) : Option Nat :=
  (w.shown.entries.find? fun e => e.2 == buffer).map Prod.fst

def retarget (w : Windows) (source target : Nat) : Windows :=
  { w with shown := w.shown.mapValues fun b => if b = source then target else b }

end Windows

end EditorLisp
