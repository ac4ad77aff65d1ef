import EditorLisp.Number.Literal
import EditorLisp.Regexp.Automaton.Reader
import EditorLisp.Regexp.Look

/-!
# Patterns as trees

Tokens are put together with a stack of open groups, so that the whole of parsing follows
the list of tokens.  A tree keeps every group and every sign of repetition, since a pattern
that is nested too deeply is refused by counting them.  Items of one alternative form a
chain to the right, and so do alternatives.

Where case is ignored a place takes whatever differs in case alone from a character it would take;
a complement is taken after that.
-/

namespace EditorLisp.Regexp

/-! ## Places for one character -/

namespace NamedClass

/-- The printing characters that are neither letters nor digits, below 128. -/
def isPunctuation (c : Char) : Bool := '!' ≤ c && c ≤ '~' && !c.isAlphanum

/-- Whether a class has a character.  The classical classes are those of the first 128
characters. -/
def contains : NamedClass → Char → Bool
  | alpha, c => c.isAlpha
  | digit, c => c.isDigit
  | alnum, c => c.isAlphanum
  | upper, c => c.isUpper
  | lower, c => c.isLower
  | space, c => c == ' ' || ('\t' ≤ c && c ≤ '\r')
  | blank, c => c == ' ' || c == '\t'
  | punct, c => isPunctuation c
  | xdigit, c => c.isDigit || ('a' ≤ c && c ≤ 'f') || ('A' ≤ c && c ≤ 'F')
  | cntrl, c => c.toNat < 0x20 || c.toNat == 0x7F
  | graph, c => '!' ≤ c && c ≤ '~'
  | print, c => ' ' ≤ c && c ≤ '~'
  | word, c => Text.isPatternWord c
  | ascii, c => c.toNat ≤ 0x7F
  | nonascii, c => 0x7F < c.toNat
  | multibyte, c => 0xFF < c.toNat
  | unibyte, c => c.toNat ≤ 0xFF

end NamedClass

def Category.contains : Category → Char → Bool
  | blank, c => Text.isBlank c
  | word, c => Text.isPatternWord c
  | symbol, c => Text.isPatternWord c || "_$&*+-/<=>".contains c
  | punctuation, c => NamedClass.isPunctuation c
  | opener, c => c == '(' || c == '[' || c == '\x7b'
  | closer, c => c == ')' || c == ']' || c == '\x7d'
  | quote, c => c == '"'

/-- The characters that differ from a character in case alone, with the character
itself. -/
def variants (c : Char) : List Char := c :: (Text.foldOrbit c.toNat).map Char.ofNat

/-- A test, weakened to ignore case if asked for. -/
def ignoringCase (fold : Bool) (test : Char → Bool) (c : Char) : Bool :=
  if fold then (variants c).any test else test c

/-- Whether an item of a bracketed set has a character.  The two classes that are
themselves complements ignore case before they are complemented. -/
def SetItem.contains (fold : Bool) : SetItem → Char → Bool
  | .char d, c => c == d
  | .range first last, c => first ≤ c && c ≤ last
  | .named .nonascii, c => !ignoringCase fold NamedClass.ascii.contains c
  | .named .multibyte, c => !ignoringCase fold NamedClass.unibyte.contains c
  | .named cls, c => cls.contains c

namespace CharSet

def accepts (fold : Bool) : CharSet → Char → Bool
  | char d, c => ignoringCase fold (· == d) c
  | any, c => c != '\n'
  | category kind negated, c =>
    -- Words and blanks are closed under change of case.
    (match kind with
      | .word | .blank => kind.contains c
      | _ => ignoringCase fold kind.contains c) != negated
  | bracket items negated, c => ignoringCase fold (fun d => items.any (·.contains fold d)) c != negated

/-- How deep a set is nested: the brackets, several items between them, and an item with
brackets of its own count once each. -/
def nesting : CharSet → Nat
  | char _ | any | category _ _ => 0
  | bracket items _ =>
    let several := if 1 < items.length then 1 else 0
    let complements := items.any fun item => item == .named .nonascii || item == .named .multibyte
    1 + several + if complements then 1 else 0

/-- How much room a set takes.  The characters of words are in many ranges. -/
def room : CharSet → Nat
  | char _ => 1
  | any => 32
  | category kind _ => if kind = .word then 1300 else 32
  | bracket items _ => if .named .word ∈ items then 1300 else 32

end CharSet

/-! ## Trees -/

/-- A pattern. -/
inductive Tree where
  /-- Nothing. -/
  | empty
  /-- One character. -/
  | one (set : CharSet)
  /-- No character, but a condition on the place. -/
  | look (look : Look)
  /-- A group, with its number if it has one. -/
  | group (index : Option Nat) (body : Tree)
  /-- One after the other. -/
  | seq (first second : Tree)
  /-- The first or, failing that, the second. -/
  | alt (first second : Tree)
  /-- At least `least` and at most `most` times, as often as possible if greedy. -/
  | rep (body : Tree) (least : Nat) (most : Option Nat) (greedy : Bool)
deriving Repr, DecidableEq

namespace Tree

/-- Whether a pattern never takes a character.  What is repeated no times at all does not. -/
def hasNoWidth : Tree → Bool
  | empty | look _ => true
  | one _ => false
  | group _ body => body.hasNoWidth
  | seq a b | alt a b => a.hasNoWidth && b.hasNoWidth
  | rep body _ most _ => most == some 0 || body.hasNoWidth

/-- Whether a pattern may match without taking a character. -/
def mayBeEmpty : Tree → Bool
  | empty | look _ => true
  | one _ => false
  | group _ body => body.mayBeEmpty
  | seq a b => a.mayBeEmpty && b.mayBeEmpty
  | alt a b => a.mayBeEmpty || b.mayBeEmpty
  | rep body least _ _ => least == 0 || body.mayBeEmpty

/-- The greatest number of a group.  What is repeated no times at all has no groups. -/
def lastGroup : Tree → Nat
  | empty | one _ | look _ => 0
  | group index body => max (index.getD 0) body.lastGroup
  | seq a b | alt a b => max a.lastGroup b.lastGroup
  | rep body _ most _ => if most = some 0 then 0 else body.lastGroup

/-- How often a pattern is worth repeating: one round is enough of what has no width. -/
def rounds (body : Tree) (least : Nat) (most : Option Nat) : Nat × Option Nat :=
  if body.hasNoWidth then (min least 1, some ((most.map (min · 1)).getD 1)) else (least, most)

/-- Several patterns one after the other, given in reverse. -/
def sequence (items : List Tree) : Tree :=
  match items with
  | [] => empty
  | last :: before => before.foldl (fun tail item => seq item tail) last

/-- Several patterns to choose from, given in reverse. -/
def choice (last : Tree) (before : List Tree) : Tree :=
  before.foldl (fun tail item => alt item tail) last

/-! ## Nesting -/

/-- The chain that a tree is part of. -/
inductive Chain where
  | none | items | alternatives
deriving Repr, DecidableEq

/-- How deep a tree is nested as a part of a chain.  A chain of several parts counts once,
however long it is. -/
def nestingIn : Chain → Tree → Nat
  | _, empty | _, look _ => 0
  | _, one set => set.nesting
  | _, group _ body => nestingIn .none body + 1
  | _, rep body _ _ _ => nestingIn .none body + 1
  | chain, seq a b =>
    max (nestingIn .items a) (nestingIn .items b) + if chain = .items then 0 else 1
  | chain, alt a b =>
    max (nestingIn .alternatives a) (nestingIn .alternatives b) +
      if chain = .alternatives then 0 else 1

def nesting (tree : Tree) : Nat := nestingIn .none tree

def maxNesting : Nat := 250

/-! ## Size

A pattern that would take up too much is refused.  The room is told roughly; nothing that is known
of a pattern which is not refused depends on it.
-/

/-- How much room a tree takes, with as many copies of what it repeats as are laid down. -/
def room : Tree → Nat
  | empty | look _ => 1
  | one set => set.room
  | group _ body => body.room + 2
  | seq a b | alt a b => a.room + b.room
  | rep body least most _ =>
    let (least, most) := body.rounds least most
    (body.room + 1) * max (max least 1) (most.getD 0)

def maxRoom : Nat := 327680

end Tree

/-! ## Parsing -/

/-- A number that fits thirty-two bits. -/
def bound? (digits : List Char) : Option Nat :=
  if digits.isEmpty || !digits.all Char.isDigit then none
  else
    let n := Number.digitsValue 10 digits
    if n < Number.twoTo 32 then some n else none

/-- The bounds of a repetition: one number, a number and a comma, or two numbers in
order. -/
def readBounds (spec : String) : Option (Nat × Option Nat) :=
  let cs := spec.toList
  let low := cs.takeWhile (· ≠ ',')
  match cs.dropWhile (· ≠ ',') with
  | [] => (bound? low).map fun n => (n, some n)
  | [_] => (bound? low).map fun n => (n, none)
  | _ :: high => do
    let least ← bound? low
    let most ← bound? high
    if least ≤ most then some (least, some most) else none

/-- What stands open around the place of parsing: the number of the group, if it has one,
and the alternatives and items before it. -/
structure OpenGroup where
  index : Option Nat
  alternatives : List Tree
  items : List Tree

/-- The state of parsing; lists are in reverse. -/
structure ParseState where
  /-- The items of the current alternative. -/
  items : List Tree := []
  /-- The alternatives before it. -/
  alternatives : List Tree := []
  /-- The groups around it, the innermost first. -/
  stack : List OpenGroup := []
  /-- The number of groups so far. -/
  groups : Nat := 0

namespace ParseState

def push (p : ParseState) (item : Tree) : ParseState := { p with items := item :: p.items }

def body (p : ParseState) : Tree := .choice (.sequence p.items) p.alternatives

/-- Repeat the last item.  The empty one that opens a pattern cannot be repeated. -/
def repeatLast (p : ParseState) (least : Nat) (most : Option Nat) (greedy : Bool) :
    Except Refusal ParseState :=
  match p.items with
  | [] | .empty :: _ => .error .nothingToRepeat
  | item :: before => .ok { p with items := .rep item least most greedy :: before }

def openGroup (p : ParseState) (numbered : Bool) : ParseState :=
  let groups := if numbered then p.groups + 1 else p.groups
  let index := if numbered then some groups else none
  { items := [], alternatives := [], stack := ⟨index, p.alternatives, p.items⟩ :: p.stack, groups }

def closeGroup (p : ParseState) : ParseState :=
  match p.stack with
  | [] => p
  | ⟨index, alternatives, items⟩ :: stack =>
    { p with items := .group index p.body :: items, alternatives, stack }

end ParseState

def Token.bounds? : Token → Option (Except Refusal (Nat × Option Nat))
  | star => some (.ok (0, none))
  | plus => some (.ok (1, none))
  | question => some (.ok (0, some 1))
  | bounds spec =>
    some (match readBounds spec with
      | some range => .ok range
      | none => .error .badCount)
  | _ => none

/-- Take in a token that is no repetition. -/
def ParseState.shift (p : ParseState) : Token → ParseState
  | .one set => p.push (.one set)
  | .lineStart => p.push (.look .lineStart)
  | .lineEnd => p.push (.look .lineEnd)
  | .textStart => p.push (.look .textStart)
  | .textEnd => p.push (.look .textEnd)
  | .wordEdge => p.push (.look .wordEdge)
  | .notWordEdge => p.push (.look .notWordEdge)
  | .openGroup => p.openGroup true
  | .openShy => p.openGroup false
  | .close => p.closeGroup
  | .alternative => { p with items := [], alternatives := .sequence p.items :: p.alternatives }
  | .star | .plus | .question | .bounds _ => p

/-- Take in tokens.  A question mark after a repetition makes it reluctant. -/
def parseTokens (p : ParseState) : List Token → Except Refusal ParseState
  | [] => .ok p
  | token :: rest =>
    match token.bounds? with
    | none => parseTokens (p.shift token) rest
    | some (.error fault) => .error fault
    | some (.ok (least, most)) =>
      match rest with
      | .question :: rest => do parseTokens (← p.repeatLast least most false) rest
      | rest => do parseTokens (← p.repeatLast least most true) rest

/-- The tree of some signs, unless it is too deep or too large.  Its first alternative opens with an
empty item, the mark for anchors that match at every line. -/
def Tree.ofTokens (tokens : List Token) : Except Refusal Tree := do
  let tree := (← parseTokens { items := [.empty] } tokens).body
  if Tree.maxNesting < tree.nesting then .error .tooDeep
  else if Tree.maxRoom < tree.room then .error .tooLarge
  else return tree

end EditorLisp.Regexp
