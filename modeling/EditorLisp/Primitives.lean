import EditorLisp.Forms.Mode
import EditorLisp.Primitives.Arithmetic
import EditorLisp.Primitives.Buffer
import EditorLisp.Primitives.Command
import EditorLisp.Primitives.Editing
import EditorLisp.Primitives.File
import EditorLisp.Primitives.Grid
import EditorLisp.Primitives.HigherOrder
import EditorLisp.Primitives.Hook
import EditorLisp.Primitives.Inert
import EditorLisp.Primitives.Keymap
import EditorLisp.Primitives.List
import EditorLisp.Primitives.Load
import EditorLisp.Primitives.Motion
import EditorLisp.Primitives.Report
import EditorLisp.Primitives.Search
import EditorLisp.Primitives.Sequence
import EditorLisp.Primitives.String
import EditorLisp.Primitives.Symbol
import EditorLisp.Primitives.Time
import EditorLisp.Primitives.Timer
import EditorLisp.Primitives.Window

/-!
# The primitives

All primitives by name, from the tables of the single families.
-/

namespace EditorLisp

open Primitives in
def primitives : List (String × Primitive) :=
  arithmetic ++ lists ++ sequences ++ symbols ++ strings ++ higherOrder ++ reports ++ times ++
    hooks ++ inert ++ editing ++ motion ++ buffers ++ keymaps ++ windows ++ timers ++ searches ++
    files ++ loading ++ grid ++ commands ++ modes

def primitive? (name : String) : Option Primitive := primitives.lookup name

def isPrimitive (name : String) : Bool := (primitive? name).isSome

end EditorLisp
