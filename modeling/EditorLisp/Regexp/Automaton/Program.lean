import EditorLisp.Regexp.Automaton.Tree

/-!
# Patterns as programs

A program is an array of instructions, each naming the next one.  Instructions are laid
down from the end of the pattern to its start, so that the place to go on at is always
known.  A branch prefers its first way.

A repetition that may go round without taking a character is entered through a branch of
its own, before the round, and left or repeated through another one after it; so a round
that takes nothing is tried once and not again.
-/

namespace EditorLisp.Regexp

/-- An instruction. -/
inductive Instruction where
  /-- Take a character of a set. -/
  | one (set : CharSet) (next : Nat)
  /-- Go on if a condition on the place holds. -/
  | look (look : Look) (next : Nat)
  /-- Remember the place. -/
  | save (slot next : Nat)
  /-- Go one way or, failing that, the other. -/
  | branch (first second : Nat)
  /-- The pattern has matched. -/
  | done
deriving Repr, DecidableEq

/-- A program being laid down: where it starts, and its instructions. -/
abbrev Code.Piece : Type := Nat × Array Instruction

namespace Code

def emit (code : Array Instruction) (i : Instruction) : Piece := (code.size, code.push i)

/-- A branch in the order of preference. -/
def choose (greedy : Bool) (again onward : Nat) : Instruction :=
  if greedy then .branch again onward else .branch onward again

/-- Lay something down so many times, one after the other. -/
def times (lay : Nat → Array Instruction → Piece) : Nat → Nat → Array Instruction → Piece
  | 0, next, code => (next, code)
  | n + 1, next, code =>
    let (start, code) := lay next code
    times lay n start code

/-- Lay something down so many times, each of them optional with all after it. -/
def optional (lay : Nat → Array Instruction → Piece) (greedy : Bool) (onward : Nat) :
    Nat → Nat → Array Instruction → Piece
  | 0, next, code => (next, code)
  | n + 1, next, code =>
    let (start, code) := lay next code
    let (branch, code) := emit code (choose greedy start onward)
    optional lay greedy onward n branch code

/-- Lay something down to be repeated at least once; the branch that repeats it is the
second part of the answer. -/
def loop (lay : Nat → Array Instruction → Piece) (greedy : Bool) (onward : Nat)
    (code : Array Instruction) : Nat × Piece :=
  let branch := code.size
  let (start, code) := lay branch (code.push .done)
  (start, branch, code.setIfInBounds branch (choose greedy start onward))

end Code

open Code in
def Tree.lay : Tree → Nat → Array Instruction → Piece
  | empty, next, code => (next, code)
  | one set, next, code => emit code (.one set next)
  | look l, next, code => emit code (.look l next)
  | group none body, next, code => body.lay next code
  | group (some index) body, next, code =>
    let (stop, code) := emit code (.save (2 * index + 1) next)
    let (start, code) := body.lay stop code
    emit code (.save (2 * index) start)
  | seq a b, next, code =>
    let (start, code) := b.lay next code
    a.lay start code
  | alt a b, next, code =>
    let (first, code) := a.lay next code
    let (second, code) := b.lay next code
    emit code (.branch first second)
  | rep body least most greedy, next, code =>
    match body.rounds least most with
    | (0, none) =>
      let (start, branch, code) := loop body.lay greedy next code
      if body.mayBeEmpty then emit code (choose greedy start next) else (branch, code)
    | (least + 1, none) =>
      let (start, _, code) := loop body.lay greedy next code
      times body.lay least start code
    | (least, some most) =>
      let (start, code) := optional body.lay greedy next (most - least) next code
      times body.lay least start code

/-- A pattern ready to be searched for. -/
structure Program where
  code : Array Instruction
  /-- The first instruction. -/
  start : Nat
  /-- The number of groups, the whole match included. -/
  groups : Nat
  /-- Whether case is ignored. -/
  fold : Bool
deriving Repr

def Program.ofTree (tree : Tree) (fold : Bool) : Program :=
  let (start, code) := tree.lay 0 #[.done]
  { code, start, groups := tree.lastGroup + 1, fold }

def Program.ofSource (source : String) : Except Refusal Program := do
  let (fold, tokens) ← readPattern source
  let tree ← Tree.ofTokens tokens
  return .ofTree tree fold

end EditorLisp.Regexp
