/-!
# Match data

What the last successful search matched: a span for each group, and whether the positions
are those of a buffer, counted from one, or of a string, counted from zero.
-/

namespace EditorLisp

/-- What the last search ran against. -/
inductive MatchSource where
  | string
  | buffer (id : Nat)
deriving Repr, DecidableEq, Inhabited

/-- The record of the last match; a group that took no part has the span `(-1, -1)`. -/
structure MatchData where
  groups : List (Int × Int)
  source : MatchSource
deriving Repr, DecidableEq, Inhabited

namespace MatchData

/-- The span of a group that took no part. -/
def noSpan : Int × Int := (-1, -1)

def group? (m : MatchData) (n : Nat) : Option (Int × Int) :=
  (m.groups[n]?).filter fun (start, stop) => 0 ≤ start && 0 ≤ stop

/-- Starts and ends in one list, without trailing groups that took no part. -/
def flat (m : MatchData) : List (Option Int) :=
  ((m.groups.flatMap fun (start, stop) =>
    if start < 0 then [none, none] else [some start, some stop]).reverse.dropWhile Option.isNone).reverse

end MatchData

/-- Expand a replacement template: a backslash with an ampersand or a digit stands for the
text of a group, with any other character for that character.  A group that took no part
stands for nothing. -/
def expandTemplate (group : Nat → Option String) : List Char → String → String
  | [], out => out
  | ['\\'], out => out.push '\\'
  | '\\' :: c :: rest, out =>
    let piece :=
      if c = '&' then (group 0).getD ""
      else if c.isDigit then (group (c.toNat - '0'.toNat)).getD ""
      else c.toString
    expandTemplate group rest (out ++ piece)
  | c :: rest, out => expandTemplate group rest (out.push c)

end EditorLisp
