import EditorLisp.Text.CharClass

/-!
# Conditions on places

A pattern may ask something of a place between two characters: that a line starts there, or that a
word ends.  The answer lies in the characters on either side, and may be another one where a text
is cut off.
-/

namespace EditorLisp.Regexp

/-- A condition on a place between characters. -/
inductive Look where
  | lineStart | lineEnd | textStart | textEnd | wordEdge | notWordEdge
deriving Repr, DecidableEq

def isWordAt (c : Option Char) : Bool := c.any Text.isPatternWord

def Look.holds (before after : Option Char) : Look → Bool
  | lineStart => before.all (· == '\n')
  | lineEnd => after.all (· == '\n')
  | textStart => before.isNone
  | textEnd => after.isNone
  | wordEdge => isWordAt before != isWordAt after
  | notWordEdge => isWordAt before == isWordAt after

/-- The character before a position. -/
def before? (text : List Char) : Nat → Option Char
  | 0 => none
  | pos + 1 => text[pos]?

def Look.holdsAt (text : List Char) (pos : Nat) (l : Look) : Bool :=
  l.holds (before? text pos) text[pos]?

end EditorLisp.Regexp
