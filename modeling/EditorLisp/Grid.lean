import EditorLisp.Table
import EditorLisp.Value

/-!
# The game grid

A grid of cells on which games draw, with one timer that drives the game.  Cells outside
the grid can be written too; they are kept but not shown.
-/

namespace EditorLisp

/-- The grid of a session. -/
structure Grid where
  width : Nat := 0
  height : Nat := 0
  /-- The value of cells that were never written. -/
  blank : Value := .nil
  /-- The cells that were written, by row and column. -/
  cells : Table Int (Table Int Value) := {}
  /-- The display options given at the start. -/
  display : Value := .nil
  /-- The timer of the game. -/
  timer : Option Nat := none
deriving Repr, Inhabited

namespace Grid

def cell (g : Grid) (x y : Int) : Value := ((g.cells.get? y).bind (·.get? x)).getD g.blank

def setCell (g : Grid) (x y : Int) (v : Value) : Grid :=
  { g with cells := g.cells.insert y (((g.cells.get? y).getD {}).insert x v) }

def reset (g : Grid) (width height : Nat) (blank : Value) : Grid :=
  { g with width, height, blank, cells := {} }

def rows (g : Grid) : List (List Value) :=
  (List.range g.height).map fun (y : Nat) =>
    (List.range g.width).map fun (x : Nat) => g.cell (x : Int) (y : Int)

end Grid

end EditorLisp
