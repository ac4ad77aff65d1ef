import EditorLisp.Source.Datum
import EditorLisp.Source.Expand
import EditorLisp.Text.Blank

/-!
# Reading data

The reader turns expanded text into data.  It is a recursive descent over the list of
remaining characters; every call consumes at least one of them, which is why a counter
started at twice the length of the text never runs out.

Offsets in errors count bytes of the text that is read.
-/

namespace EditorLisp.Source

open EditorLisp.Number EditorLisp.Text

/-- A place in a text: what is left of it, and how many bytes came before. -/
structure Cursor where
  /-- The characters not yet read. -/
  rest : List Char
  /-- The number of bytes read. -/
  offset : Nat
deriving Repr, DecidableEq

namespace Cursor

def ofString (text : String) : Cursor := ⟨text.toList, 0⟩

/-- Step over one character, if there is one. -/
def bump (c : Cursor) : Cursor :=
  match c.rest with
  | [] => c
  | ch :: rest => ⟨rest, c.offset + ch.utf8Size⟩

def advance (c : Cursor) : Nat → Cursor
  | 0 => c
  | n + 1 => c.bump.advance n

def fail {α : Type} (c : Cursor) (fault : Fault) : Except Error α := .error ⟨fault, c.offset⟩

/-- What is being stepped over: blanks between tokens, a line comment, or a block
comment some levels deep. -/
inductive Skipping where
  | blanks
  | line
  | block (depth : Nat)

/-- Step over blanks and comments from a byte offset.  The flag says whether a token
follows; a block comment that never ends takes all of the text with it. -/
def skipFrom : Skipping → Nat → List Char → Cursor × Bool
  | _, offset, [] => (⟨[], offset⟩, false)
  | .blanks, offset, ';' :: rest => skipFrom .line (offset + 1) rest
  | .blanks, offset, '#' :: '|' :: rest => skipFrom (.block 1) (offset + 2) rest
  | .blanks, offset, c :: rest =>
    if isBlank c then skipFrom .blanks (offset + c.utf8Size) rest else (⟨c :: rest, offset⟩, true)
  | .line, offset, c :: rest =>
    skipFrom (if c = '\n' then .blanks else .line) (offset + c.utf8Size) rest
  | .block depth, offset, '#' :: '|' :: rest => skipFrom (.block (depth + 1)) (offset + 2) rest
  | .block depth, offset, '|' :: '#' :: rest =>
    skipFrom (if depth ≤ 1 then .blanks else .block (depth - 1)) (offset + 2) rest
  | .block depth, offset, c :: rest => skipFrom (.block depth) (offset + c.utf8Size) rest

def skip (c : Cursor) : Cursor × Bool := skipFrom .blanks c.offset c.rest

end Cursor

/-- A dot separates the last element of a list from its tail when a blank, a
parenthesis, a comment or the end of the text follows. -/
def isDotSeparator : Option Char → Bool
  | none => true
  | some c => isBlank c || c == ')' || c == '(' || c == ';'

/-- The character that a letter after a backslash stands for inside a string; a
newline there stands for nothing. -/
def stringEscape (c : Char) : String :=
  match c with
  | 'n' => "\n"
  | 'r' => "\r"
  | 't' => "\t"
  | 'a' => "\x07"
  | 'b' => "\x08"
  | 'f' => "\x0c"
  | 'e' => "\x1b"
  | 'd' => "\x7f"
  | 's' => " "
  | '\n' => ""
  | other => other.toString

/-- The character with a given code point, if there is one. -/
def charOfCode? (code : Nat) : Option Char :=
  if h : code.isValidChar then some (Char.ofNatAux code h) else none

/-- Read the rest of a string whose opening quote has been consumed. -/
def readString : Nat → Cursor → String → Except Error (Datum × Cursor)
  | 0, c, _ => c.fail .unterminatedString
  | fuel + 1, c, out =>
    match c.rest with
    | [] => c.fail .unterminatedString
    | '"' :: _ => .ok (.str out, c.bump)
    | '\\' :: [] => c.bump.fail .unterminatedEscape
    | '\\' :: 'x' :: rest =>
      let word := rest.takeWhile (isDigit 16)
      let after := c.advance (2 + word.length)
      let code := digitsValue 16 word
      if word.isEmpty ∨ twoTo 32 ≤ code then after.fail .badHexEscape
      else
        match charOfCode? code with
        | none => after.fail .badCodePoint
        | some ch =>
          let after := match after.rest with
            | '\\' :: ' ' :: _ => after.advance 2
            | _ => after
          readString fuel after (out.push ch)
    | '\\' :: ch :: rest =>
      if isDigit 8 ch then
        let word := ch :: (rest.take 2).takeWhile (isDigit 8)
        readString fuel (c.advance (1 + word.length)) (out.push (Char.ofNat (digitsValue 8 word)))
      else readString fuel (c.advance 2) (out ++ stringEscape ch)
    | ch :: _ => readString fuel c.bump (out.push ch)

def endsAtom (c : Char) : Bool :=
  isBlank c || c ∈ ['(', ')', '[', ']', '\'', '`', ',', '"', ';']

/-- Collect the characters of an atom; the flag says whether a backslash occurred.  A
backslash takes the next character as it is, whatever it is. -/
def atomText : List Char → Nat → List Char → Bool → List Char × Bool × Cursor
  | [], offset, out, escaped => (out.reverse, escaped, ⟨[], offset⟩)
  | ['\\'], offset, out, _ => (('\\' :: out).reverse, true, ⟨[], offset + 1⟩)
  | '\\' :: c :: rest, offset, out, _ => atomText rest (offset + 1 + c.utf8Size) (c :: out) true
  | c :: rest, offset, out, escaped =>
    if endsAtom c then (out.reverse, escaped, ⟨c :: rest, offset⟩)
    else atomText rest (offset + c.utf8Size) (c :: out) escaped

/-- Scan of a float-like word: whether a digit and whether a point or exponent letter
was seen, or `none` for a character that no float holds. -/
def floatMarks : List Char → Bool → Bool → Option (Bool × Bool)
  | [], digit, mark => some (digit, mark)
  | c :: rest, digit, mark =>
    if c.isDigit then floatMarks rest true mark
    else if c ∈ ['.', 'e', 'E'] then floatMarks rest digit true
    else if c ∈ ['+', '-'] ∧ mark then floatMarks rest digit mark
    else none

/-- Whether a word is shaped like a float: a digit and a mark, signs aside. -/
def looksLikeFloat (word : List Char) : Bool :=
  floatMarks (word.dropWhile (· ∈ ['+', '-'])) false false == some (true, true)

/-- The datum that an unescaped atom stands for. -/
def atomDatum (word : List Char) : Datum :=
  match intLiteral? 10 word with
  | some n => .int n
  | none =>
    match if looksLikeFloat word then floatLiteral? word else none with
    | some x => .float x
    | none => .ofName (String.ofList word)

/-- Read an atom.  An atom with a backslash in it is always a plain symbol. -/
def readAtom (c : Cursor) : Except Error (Datum × Cursor) :=
  match atomText c.rest c.offset [] false with
  | ([], _, after) => after.fail (.unexpectedCharacter (after.rest.head?.getD ' '))
  | (word, true, after) => .ok (.symbol (String.ofList word), after)
  | (word, false, after) => .ok (atomDatum word, after)

mutual

def readForm : Nat → Cursor → Except Error (Datum × Cursor)
  | 0, c => c.fail .unexpectedEnd
  | fuel + 1, c =>
    let c := c.skip.1
    match c.rest with
    | [] => c.fail .unexpectedEnd
    | '(' :: _ => readItems fuel c.bump []
    | ')' :: _ => c.fail .unexpectedClose
    | '\'' :: _ => readMarked fuel c.bump "quote"
    | '`' :: _ => readMarked fuel c.bump "`"
    | ',' :: '@' :: _ => readMarked fuel (c.advance 2) ",@"
    | ',' :: _ => readMarked fuel c.bump ","
    | '"' :: _ => readString fuel c.bump ""
    | '#' :: '\'' :: _ => readMarked fuel (c.advance 2) "function"
    | _ => readAtom c

/-- Read the form after a quoting mark and wrap it. -/
def readMarked : Nat → Cursor → String → Except Error (Datum × Cursor)
  | 0, c, _ => c.fail .unexpectedEnd
  | fuel + 1, c, head =>
    match readForm fuel c with
    | .error e => .error e
    | .ok (form, after) => .ok (.ofList [.symbol head, form], after)

/-- Read the elements of a list up to its closing parenthesis.  The elements read so
far are given in reverse. -/
def readItems : Nat → Cursor → List Datum → Except Error (Datum × Cursor)
  | 0, c, _ => c.fail .unterminatedList
  | fuel + 1, c, items =>
    let c := c.skip.1
    match c.rest with
    | [] => c.fail .unterminatedList
    | ')' :: _ => .ok (.ofList items.reverse, c.bump)
    | ch :: next =>
      if ch = '.' ∧ isDotSeparator next.head? ∧ !items.isEmpty then
        match readForm fuel c.bump with
        | .error e => .error e
        | .ok (tail, after) =>
          let after := after.skip.1
          match after.rest with
          | ')' :: _ => .ok (.listWithTail items.reverse tail, after.bump)
          | _ => after.fail .tailNotClosed
      else
        match readForm fuel c with
        | .error e => .error e
        | .ok (item, after) => readItems fuel after (item :: items)

end

/-- Read one form with a counter that the text cannot exhaust. -/
def Cursor.readForm (c : Cursor) : Except Error (Datum × Cursor) :=
  Source.readForm (2 * c.rest.length + 2) c

/-- Read forms until no token is left.  The forms read so far are given in reverse. -/
def readAllFrom : Nat → Cursor → List Datum → Except Error (List Datum)
  | 0, _, forms => .ok forms.reverse
  | fuel + 1, c, forms =>
    match c.skip with
    | (_, false) => .ok forms.reverse
    | (c, true) =>
      match c.readForm with
      | .error e => .error e
      | .ok (form, after) => readAllFrom fuel after (form :: forms)

/-- Read every form of an expanded text. -/
def readExpanded (text : String) : Except Error (List Datum) :=
  readAllFrom (text.length + 1) (.ofString text) []

/-- Expand a source text and read every form of it. -/
def readSource (source : String) : Except Error (List Datum) := do
  readExpanded (← expand source)

/-- Read one form that starts at a character position, or at the end of the text if that
comes first; the answer holds the position just after it. -/
def readOne (text : String) (start : Nat) : Except Error (Datum × Nat) :=
  match ((Cursor.ofString text).advance (min start text.length)).skip with
  | (c, false) => c.fail .endOfInput
  | (c, true) =>
    match c.readForm with
    | .error e => .error e
    | .ok (form, after) => .ok (form, text.length - after.rest.length)

end EditorLisp.Source
