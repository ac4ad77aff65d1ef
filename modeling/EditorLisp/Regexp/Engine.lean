import EditorLisp.Regexp.Extended
import EditorLisp.Text.Offset

/-!
# Engines

Patterns are matched by an engine, which comes from outside.  It takes a pattern in the extended
notation and makes a regular expression of it, or refuses it; what the expression finds in a text
it tells by offsets into the encoding of that text.  Such an answer always lies between characters
of the text.  Which texts match is the engine's affair, and nothing here depends on it.
-/

namespace EditorLisp.Regexp

open Text

/-- A match in a text, from one byte offset to another. -/
structure Match (text : List Char) where
  start : Nat
  stop : Nat
  ordered : start ≤ stop
  start_boundary : IsCharBoundary text start
  stop_boundary : IsCharBoundary text stop

/-- A match with what its groups have matched; one that took no part has matched nothing. -/
structure Captures (text : List Char) where
  whole : Match text
  groups : List (Option (Match text))

/-- A regular expression that is ready to be looked for. -/
structure Regex where
  /-- The first match that starts at a byte offset or behind it. -/
  capturesAt : (text : List Char) → Nat → Option (Captures text)
  /-- All matches, each of them looked for behind the one before. -/
  captures : (text : List Char) → List (Captures text)
  /-- What lies between all matches. -/
  split : (text : List Char) → List (List Char)

/-- What makes regular expressions. -/
structure Engine where
  /-- How a character is written that stands for itself. -/
  escape : Char → String
  /-- The regular expression of a pattern, or why there is none. -/
  compile : String → Except String Regex

/-- The regular expression of a pattern, which may ignore case. -/
def Engine.ofPattern (e : Engine) (pattern : String) (fold : Bool) : Except String Regex := do
  let source ← (extended e.escape pattern).mapError Fault.message
  e.compile (if fold then "(?i)" ++ source else source)

/-! ## Positions -/

abbrev Spans : Type := List (Option (Nat × Nat))

def Spans.whole (spans : Spans) : Nat × Nat := (spans.head?.join).getD (0, 0)

def Spans.group? (spans : Spans) (n : Nat) : Option (Nat × Nat) := (spans[n]?).join

variable {chars : List Char}

def Match.span (m : Match chars) : Nat × Nat := (charOffset chars m.start, charOffset chars m.stop)

def Match.text (m : Match chars) : String := String.ofList ((slice? chars m.start m.stop).getD [])

/-- What a group has matched; the first one is the whole. -/
def Captures.group? (c : Captures chars) : Nat → Option (Match chars)
  | 0 => some c.whole
  | n + 1 => (c.groups[n]?).join

def Captures.spans (c : Captures chars) : Spans := (some c.whole :: c.groups).map (·.map Match.span)

/-- The match that starts at a byte offset, if the first one from there on does. -/
def Regex.matchAt? (r : Regex) (text : List Char) (byte : Nat) : Option (Captures text) :=
  (r.capturesAt text byte).filter fun c => c.whole.start = byte

end EditorLisp.Regexp
