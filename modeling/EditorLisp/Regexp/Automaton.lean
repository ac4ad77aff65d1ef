import EditorLisp.Regexp.Automaton.Program
import EditorLisp.Regexp.Engine

/-!
# The automaton

The engine that programs run with unless they are given another one.

A search walks once over the text and keeps, at each place, the list of all ways in which
the pattern can have come that far, the most preferred one first, each with the places it
has remembered.  No instruction is in the list twice, since of two ways to the same
instruction only the preferred one can matter.  When a way reaches the end of the pattern
it beats all ways after it, and the search goes on only for the sake of those before it.
-/

namespace EditorLisp.Regexp

open Text

/-- The places that a way has remembered: the start and end of each group. -/
abbrev Slots : Type := Array (Option Nat)

/-- A way to an instruction. -/
structure Thread where
  pc : Nat
  slots : Slots
deriving Inhabited

/-- A place in a text: its number, and the characters around it. -/
structure Place where
  pos : Nat
  before : Option Char
  after : Option Char

/-- A text to search in, its characters by position. -/
structure Subject where
  chars : Array Char

namespace Subject

def ofList (text : List Char) : Subject := ⟨text.toArray⟩

def size (s : Subject) : Nat := s.chars.size

/-- The character after a position. -/
def after? (s : Subject) (pos : Nat) : Option Char := s.chars[pos]?

/-- The character before a position. -/
def before? (s : Subject) : Nat → Option Char
  | 0 => none
  | pos + 1 => s.after? pos

def place (s : Subject) (pos : Nat) : Place := ⟨pos, s.before? pos, s.after? pos⟩

end Subject

/-- The ways found so far at a place, in reverse, and the instructions they have passed. -/
structure Frontier where
  seen : Array Bool
  threads : List Thread := []

namespace Program

/-- Follow a way over instructions that take no character.  Every level of the recursion
passes a new instruction, so the size of the program is depth enough. -/
def follow (prog : Program) (p : Place) : Nat → Nat → Slots → Frontier → Frontier
  | 0, _, _, f => f
  | fuel + 1, pc, slots, f =>
    if f.seen.getD pc true then f
    else
      let f := { f with seen := f.seen.setIfInBounds pc true }
      match prog.code.getD pc .done with
      | .one _ _ | .done => { f with threads := ⟨pc, slots⟩ :: f.threads }
      | .look l next => if l.holds p.before p.after then prog.follow p fuel next slots f else f
      | .save slot next => prog.follow p fuel next (slots.setIfInBounds slot (some p.pos)) f
      | .branch first second =>
        prog.follow p fuel second slots (prog.follow p fuel first slots f)

def frontier (prog : Program) (p : Place) (threads : List Thread) : List Thread :=
  (threads.foldl (fun f t => prog.follow p (prog.code.size + 1) t.pc t.slots f)
    { seen := Array.replicate prog.code.size false }).threads.reverse

def isDone (prog : Program) (t : Thread) : Bool := prog.code.getD t.pc .done == .done

/-- The ways after taking a character. -/
def advance (prog : Program) (c : Char) (threads : List Thread) : List Thread :=
  threads.filterMap fun t =>
    match prog.code.getD t.pc .done with
    | .one set next => if set.accepts prog.fold c then some ⟨next, t.slots⟩ else none
    | _ => none

/-- The way in which a search starts at a place. -/
def entry (prog : Program) (pos : Nat) : Thread :=
  ⟨prog.start, (Array.replicate (2 * prog.groups) none).setIfInBounds 0 (some pos)⟩

/-- The ways at a place, from the ways that lead there, and the best match so far.  As long
as nothing was found the search also starts anew at each place. -/
def arrive (prog : Program) (text : Subject) (pos : Nat) (threads : List Thread)
    (best : Option Slots) : List Thread × Option Slots :=
  let threads := if best.isNone then threads ++ [prog.entry pos] else threads
  let threads := prog.frontier (text.place pos) threads
  match threads.find? prog.isDone with
  | some t => (threads, some (t.slots.setIfInBounds 1 (some pos)))
  | none => (threads, best)

/-- Search on from a place, so many characters far. -/
def searchOn (prog : Program) (text : Subject) :
    Nat → Nat → List Thread → Option Slots → Option Slots
  | 0, pos, threads, best => (prog.arrive text pos threads best).2
  | room + 1, pos, threads, best =>
    let (threads, best) := prog.arrive text pos threads best
    match text.after? pos with
    | none => best
    | some c =>
      let threads := prog.advance c (threads.takeWhile (!prog.isDone ·))
      if threads.isEmpty && best.isSome then best
      else searchOn prog text room (pos + 1) threads best

end Program

/-- The spans between remembered places. -/
def spansOf (slots : Slots) : Spans :=
  (List.range (slots.size / 2)).map fun n => do
    let start ← slots.getD (2 * n) none
    let stop ← slots.getD (2 * n + 1) none
    return (start, stop)

namespace Program

/-- The first match at or after a position. -/
def search? (prog : Program) (text : Subject) (start : Nat) : Option Spans :=
  (prog.searchOn text (text.size - start) start [] none).map spansOf

/-- All matches from a position on, after those already found, which are in reverse.  None
overlaps the one before, and an empty match right behind another match does not count. -/
def matchesOn (prog : Program) (text : Subject) :
    Nat → Nat → Option Nat → List Spans → List Spans
  | 0, _, _, found => found.reverse
  | fuel + 1, start, lastEnd, found =>
    match prog.search? text start with
    | none => found.reverse
    | some spans =>
      let (first, stop) := spans.whole
      if first = stop ∧ lastEnd = some stop then
        if start < text.size then matchesOn prog text fuel (start + 1) lastEnd found
        else found.reverse
      else matchesOn prog text fuel stop (some stop) (spans :: found)

def allMatches (prog : Program) (text : Subject) : List Spans :=
  prog.matchesOn text (2 * text.size + 3) 0 none []

end Program

/-! ## The engine -/

/-- The match between two positions, if they are in order. -/
def Match.between? (text : List Char) (span : Nat × Nat) : Option (Match text) :=
  if h : span.1 ≤ span.2 then
    some ⟨byteOffset text span.1, byteOffset text span.2, byteOffset_le_byteOffset text h,
      ⟨_, rfl⟩, ⟨_, rfl⟩⟩
  else none

/-- The match with some spans, the first of which is that of the whole. -/
def Captures.ofSpans? (text : List Char) : Spans → Option (Captures text)
  | some whole :: groups =>
    (Match.between? text whole).map fun whole =>
      ⟨whole, groups.map (·.bind (Match.between? text))⟩
  | _ => none

/-- The pieces of the rest of a text between matches, the last of which goes to the
end. -/
def pieces (rest : List Char) : Nat → List Spans → List (List Char)
  | _, [] => [rest]
  | pos, spans :: more =>
    let (first, stop) := spans.whole
    rest.take (first - pos) :: pieces (rest.drop (stop - pos)) stop more

def Program.regex (p : Program) : Regex where
  capturesAt text byte :=
    (p.search? (.ofList text) (charOffset text byte)).bind (Captures.ofSpans? text)
  captures text := (p.allMatches (.ofList text)).filterMap (Captures.ofSpans? text)
  split text := pieces text 0 (p.allMatches (.ofList text))

/-- An engine that follows all ways through a pattern at once. -/
def automaton : Engine where
  escape := literalText
  compile source := ((Program.ofSource source).map Program.regex).mapError Refusal.message

end EditorLisp.Regexp
