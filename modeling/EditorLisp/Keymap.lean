import EditorLisp.Table
import EditorLisp.Value
import EditorLisp.Text.Blank

/-!
# Keymaps

A keymap binds key descriptions to values.  A full keymap also keeps a dense table for
the single characters below 256; every binding of such a key is written to both tables,
and look-up asks the dense one.

Key descriptions have a canonical spelling, and a raw input code may be bound under any
of several of them.
-/

namespace EditorLisp

def denseSize : Nat := 256

/-- A table of key bindings. -/
structure Keymap where
  /-- Bindings by key description. -/
  bindings : Table String Value := {}
  /-- Bindings of single characters, in a full keymap. -/
  dense : Option (Array Value) := none
  /-- The keymap to fall back on. -/
  parent : Option Value := none
deriving Repr, Inhabited

namespace Keymap

/-- A full keymap without bindings. -/
def full : Keymap := { dense := some (Array.replicate denseSize .nil) }

def isFull (m : Keymap) : Bool := m.dense.isSome

def denseSlot? (key : String) : Option Nat :=
  match key.toList with
  | [c] => if c.toNat < denseSize then some c.toNat else none
  | _ => none

/-- Bind a key; binding it to `nil` removes it. -/
def define (m : Keymap) (key : String) (binding : Value) : Keymap :=
  { m with
    dense := match denseSlot? key with
      | some slot => m.dense.map fun table => table.setIfInBounds slot binding
      | none => m.dense
    bindings := if binding.isNil then m.bindings.erase key else m.bindings.insert key binding }

def lookup? (m : Keymap) (key : String) : Option Value :=
  match m.dense, denseSlot? key with
  | some table, some slot => (table[slot]?).filter Value.isTrue
  | _, _ => m.bindings.get? key

end Keymap

namespace Key

/-- Other spellings of a few keys. -/
def canonical (token : String) : String :=
  if token ∈ ["<return>", "return", "\r"] then "RET"
  else if token ∈ ["<tab>", "tab", "\t"] then "TAB"
  else if token ∈ ["<escape>", "escape", "\x1b"] then "ESC"
  else if token = "<SPC>" then "SPC"
  else token

def words (text : String) : List String :=
  (text.split Text.isBlank).toList.map (·.toString) |>.filter (· ≠ "")

/-- Spell every word of a key description canonically. -/
def describe (text : String) : String :=
  match words text with
  | [] => text
  | tokens => " ".intercalate (tokens.map canonical)

/-- The key of a character, by its code. -/
def ofCode? (code : Int) : Option String :=
  if 0 ≤ code ∧ code.toNat.isValidChar then
    some (if code = 13 then "RET" else if code = 9 then "TAB" else if code = 27 then "ESC"
      else (Char.ofNat code.toNat).toString)
  else none

/-- The descriptions under which a raw input code may be bound, the most specific
first. -/
def candidates (code : Int) : List String :=
  match code with
  | 10 | 13 => ["\r", "\n", "RET", "C-m"]
  | 9 => ["\t", "TAB", "<tab>", "C-i"]
  | 27 => ["ESC", "<escape>", "\x1b"]
  | 32 => ["SPC", " "]
  | 2 => ["\x02", "C-b"]
  | 3 => ["\x03", "C-c"]
  | 6 => ["\x06", "C-f"]
  | 14 => ["\x0e", "C-n"]
  | 16 => ["\x10", "C-p"]
  | 252 => ["<left>", "left", "C-b"]
  | 253 => ["<up>", "up", "C-p"]
  | 254 => ["<right>", "right", "C-f"]
  | 255 => ["<down>", "down", "C-n"]
  | _ =>
    if 0 ≤ code ∧ code.toNat.isValidChar then [(Char.ofNat code.toNat).toString] else []

end Key

end EditorLisp
