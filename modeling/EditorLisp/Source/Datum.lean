/-!
# Data and faults in source text

A datum is what the reader makes of one form: an atom or a pair of data.  It is a finite
tree with no identity; pairs and strings get theirs when the datum enters a store.  A text that
cannot be read has a fault at some place.
-/

namespace EditorLisp

/-- A form as written. -/
inductive Datum where
  | nil
  | t
  | int (value : Int64)
  | float (value : Float)
  | symbol (name : String)
  | keyword (name : String)
  | str (text : String)
  | cons (car cdr : Datum)
deriving Repr, Inhabited

namespace Datum

/-- The atom that an unescaped name stands for.  The names `nil` and `t` are atoms of
their own and a name of at least two characters that starts with a colon is a keyword. -/
def ofName (name : String) : Datum :=
  if name = "nil" then .nil
  else if name = "t" then .t
  else if name.front = ':' ∧ 1 < name.utf8ByteSize then .keyword name
  else .symbol name

def listWithTail (items : List Datum) (tail : Datum) : Datum :=
  items.foldr .cons tail

def ofList (items : List Datum) : Datum := listWithTail items .nil

/-- The elements along the spine of a datum, and what the spine ends in. -/
def spine : Datum → List Datum × Datum
  | .cons car cdr => let (items, tail) := cdr.spine; (car :: items, tail)
  | other => ([], other)

end Datum

/-!
## Faults in source text

Why a source text cannot be read, and where.  Faults found while bracket syntax is
expanded are located by character, faults found by the reader proper by byte of the
expanded text.
-/

namespace Source

/-- The ways in which source text fails to be a sequence of forms. -/
inductive Fault where
  /-- A closing bracket without an opening one. -/
  | unmatchedClosingBracket
  /-- An opening bracket that is never closed. -/
  | unmatchedOpeningBracket
  /-- A string literal that runs to the end of the raw text. -/
  | unterminatedLiteral
  /-- No form is left at the place where one was asked for. -/
  | endOfInput
  /-- The text ends where a form must start. -/
  | unexpectedEnd
  /-- A closing parenthesis where a form must start. -/
  | unexpectedClose
  /-- Something other than a closing parenthesis after a dotted tail. -/
  | tailNotClosed
  /-- The text ends inside a list. -/
  | unterminatedList
  /-- The text ends inside a string. -/
  | unterminatedString
  /-- The text ends after a backslash in a string. -/
  | unterminatedEscape
  /-- A hexadecimal escape without digits or with too large a number. -/
  | badHexEscape
  /-- A hexadecimal escape that names no character. -/
  | badCodePoint
  /-- A character that can start no token. -/
  | unexpectedCharacter (c : Char)
deriving Repr, DecidableEq

def Fault.message : Fault → String
  | .unmatchedClosingBracket => "unmatched ] in elisp source"
  | .unmatchedOpeningBracket => "unmatched [ in elisp source"
  | .unterminatedLiteral => "unterminated string literal"
  | .endOfInput => "end of input"
  | .unexpectedEnd => "unexpected end of input"
  | .unexpectedClose => "unexpected ')'"
  | .tailNotClosed => "expected ')' after dotted pair"
  | .unterminatedList => "unterminated list"
  | .unterminatedString => "unterminated string"
  | .unterminatedEscape => "unterminated escape in string"
  | .badHexEscape => "invalid \\x escape"
  | .badCodePoint => "invalid codepoint in \\x escape"
  | .unexpectedCharacter c => "unexpected character '" ++ c.toString ++ "'"

/-- A fault together with the offset at which it was noticed. -/
structure Error where
  /-- What is wrong. -/
  fault : Fault
  /-- Where it was noticed. -/
  offset : Nat
deriving Repr, DecidableEq

/-- The one-line report of an error. -/
def Error.describe (e : Error) : String :=
  e.fault.message ++ " (at offset " ++ toString e.offset ++ ")"

end Source

end EditorLisp
