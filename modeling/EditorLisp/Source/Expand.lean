import EditorLisp.Number.Literal
import EditorLisp.Source.Datum

/-!
# Expansion of shorthand syntax

Before forms are read, one pass over the raw text writes shorthand out in plain forms:
function quotes, radix and character literals, a few escaped punctuation marks, the
names `1+` and `1-`, vector brackets, symbols that start with a digit, and two calls
whose heads have another name inside the runtime.  Strings and line comments are copied
unchanged.

The pass looks at characters only.  It knows nothing about forms, so a parenthesised
word is treated as a call wherever it stands, parameter lists included.
-/

namespace EditorLisp.Source

open EditorLisp.Number

/-- Where the pass stands: in plain text, in a line comment, or in a string that
started at some offset, possibly just after a backslash. -/
inductive ScanMode where
  | code
  | comment
  | text (start : Nat) (escaped : Bool)
deriving Repr, DecidableEq

/-- Characters that end a token for the purposes of expansion, as does either end of
the text. -/
def isDelimiter : Option Char → Bool
  | none => true
  | some c => c ∈ [' ', '\t', '\n', '\r', '(', ')', '[', ']', '\'', '`', ',', '"']

def isSymbolChar (c : Char) : Bool :=
  c.isAlphanum || c ∈ ['-', '_', ':', '/', '+', '*', '<', '>', '=', '?', '!', '$', '%', '&', '.', '~']

/-- Blanks skipped inside a call without arguments. -/
def isCallBlank (c : Char) : Bool := c ∈ [' ', '\t', '\n', '\r']

/-- A radix literal at the front of the text, which starts with `#`: its value and the
number of characters it takes. -/
def radixLiteral? : List Char → Option (Int64 × Nat)
  | _ :: mark :: rest =>
    let radix : Option Nat :=
      if mark = 'o' ∨ mark = 'O' then some 8
      else if mark = 'x' ∨ mark = 'X' then some 16
      else if mark = 'b' ∨ mark = 'B' then some 2
      else none
    radix.bind fun radix =>
      let word := rest.takeWhile (isDigit radix)
      (intLiteral? radix word).map fun value => (value, 2 + word.length)
  | _ => none

/-- The code of a character typed with the control key. -/
def controlCode (c : Char) : Nat :=
  if c = '?' then 127 else c.toUpper.toNat % 32

/-- The code of a character named by a single letter after a backslash. -/
def escapeCode (c : Char) : Nat :=
  match c with
  | 'n' => 10
  | 't' => 9
  | 'r' => 13
  | 'f' => 12
  | 'b' => 8
  | 'e' => 27
  | 'a' => 7
  | 'd' => 127
  | other => other.toNat

def octalTriple? : List Char → Option Nat
  | a :: b :: c :: _ =>
    if [a, b, c].all (isDigit 8) then some (digitsValue 8 [a, b, c]) else none
  | _ => none

/-- A character literal at the front of the text, which starts with `?`: its code and
the number of characters it takes. -/
def characterLiteral? : List Char → Option (Nat × Nat)
  | _ :: '\\' :: rest =>
    match octalTriple? rest, rest with
    | some code, _ => some (code, 5)
    | none, [] => none
    | none, 'C' :: '-' :: after => after.head?.map fun c => (controlCode c, 5)
    | none, '^' :: after => after.head?.map fun c => (controlCode c, 4)
    | none, 's' :: '-' :: _ => some ('s'.toNat, 3)
    | none, 's' :: _ => some (32, 3)
    | none, c :: _ => some (escapeCode c, 3)
  | _ :: c :: _ => some (c.toNat, 2)
  | _ => none

/-- Calls without arguments whose head is written differently inside the runtime. -/
def renamedCalls : List (String × String) :=
  [("point", "(el-point"), ("dun-mode", "(call-fn 'dun-mode")]

/-- A renamed call at the front of the text, which starts with an opening parenthesis:
the text that replaces parenthesis and head, and the number of characters replaced. -/
def renamedCall? (text : List Char) : Option (String × Nat) :=
  let after := text.drop 1
  let blanks := (after.takeWhile isCallBlank).length
  let word := (after.drop blanks).takeWhile isSymbolChar
  let rest := (after.drop (blanks + word.length)).dropWhile isCallBlank
  if rest.head? = some ')' then
    (renamedCalls.lookup (String.ofList word)).map fun replacement =>
      (replacement, 1 + blanks + word.length)
  else none

/-- A symbol that starts with a digit, holds a letter and is no number. -/
def digitSymbol? (prev : Option Char) (text : List Char) : Option (List Char) :=
  let word := text.takeWhile isSymbolChar
  if isDelimiter prev && isDelimiter (text.drop word.length).head? &&
      word.any Char.isAlpha && (floatLiteral? word).isNone then some word
  else none

/-- One token of plain text written out: the output, the number of characters consumed
and the next mode.  Brackets are counted by the caller. -/
def expandToken (offset : Nat) (prev : Option Char) (text : List Char) : String × Nat × ScanMode :=
  match text with
  | [] => ("", 1, .code)
  | ';' :: _ => (";", 1, .comment)
  | '"' :: _ => ("\"", 1, .text offset false)
  | '#' :: '\'' :: _ => ("'", 2, .code)
  | '#' :: _ =>
    match radixLiteral? text with
    | some (value, used) =>
      let gap := if (text.drop used).head?.any Char.isAlphanum then " " else ""
      (toString value.toInt ++ gap, used, .code)
    | none => ("#", 1, .code)
  | '[' :: _ => ("(vector-literal ", 1, .code)
  | ']' :: _ => (")", 1, .code)
  | '(' :: _ =>
    match renamedCall? text with
    | some (replacement, used) => (replacement, used, .code)
    | none => ("(", 1, .code)
  | c :: rest =>
    if c = '\\' ∧ rest.head?.any (· ∈ ['?', '.', ',', '!']) then
      ("\"" ++ String.ofList (rest.take 1) ++ "\"", 2, .code)
    else if c = '1' ∧ rest.head?.any (· ∈ ['+', '-']) ∧ isDelimiter prev ∧ isDelimiter rest.tail.head? then
      (if rest.head? = some '+' then "succ" else "pred", 2, .code)
    else if c = '?' ∧ isDelimiter prev then
      match characterLiteral? text with
      | some (code, used) => (digits code, used, .code)
      | none => ("?", 1, .code)
    else if c.isDigit then
      match digitSymbol? prev text with
      | some word => ("n-" ++ String.ofList word, word.length, .code)
      | none => (c.toString, 1, .code)
    else (c.toString, 1, .code)

/-- The mode after one character of a comment or a string, and of plain text that is
not looked at. -/
def ScanMode.next (mode : ScanMode) (c : Char) : ScanMode :=
  match mode with
  | .code => .code
  | .comment => if c = '\n' then .code else .comment
  | .text start true => .text start false
  | .text start false =>
    if c = '\\' then .text start true else if c = '"' then .code else mode

/-- What the pass carries from character to character. -/
structure Scan where
  /-- The current mode. -/
  mode : ScanMode := .code
  /-- The character before the current one. -/
  prev : Option Char := none
  /-- The number of characters consumed. -/
  offset : Nat := 0
  /-- The offsets of the brackets still open, innermost first. -/
  openBrackets : List Nat := []
  /-- The text written so far. -/
  out : String := ""

/-- The last of `n` characters at the front of a text. -/
def lastOf (n : Nat) (text : List Char) : Option Char := text[n - 1]?

/-- Run the pass over the rest of the text.  The counter bounds the number of tokens,
each of which takes at least one character. -/
def expandFrom : Nat → Scan → List Char → Except Error Scan
  | 0, scan, _ => .ok scan
  | _, scan, [] => .ok scan
  | fuel + 1, scan, c :: rest =>
    match scan.mode with
    | .code =>
      if c = ']' ∧ scan.openBrackets = [] then
        .error ⟨.unmatchedClosingBracket, scan.offset⟩
      else
        let (written, used, mode) := expandToken scan.offset scan.prev (c :: rest)
        let openBrackets :=
          if c = '[' then scan.offset :: scan.openBrackets
          else if c = ']' then scan.openBrackets.tail
          else scan.openBrackets
        expandFrom fuel
          { mode, openBrackets, prev := lastOf used (c :: rest), offset := scan.offset + used,
            out := scan.out ++ written }
          ((c :: rest).drop used)
    | mode =>
      expandFrom fuel
        { scan with
          mode := mode.next c, prev := some c, offset := scan.offset + 1, out := scan.out.push c }
        rest

def expand (source : String) : Except Error String := do
  let text := source.toList
  let scan ← expandFrom text.length {} text
  match scan.mode, scan.openBrackets with
  | .text start _, _ => throw ⟨.unterminatedLiteral, start⟩
  | _, start :: _ => throw ⟨.unmatchedOpeningBracket, start⟩
  | _, [] => return scan.out

end EditorLisp.Source
