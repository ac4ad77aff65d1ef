import EditorLisp.Evaluation.Variables
import EditorLisp.Format
import EditorLisp.Primitives.Sequence
import EditorLisp.Text.CharClass

/-!
# Strings

Primitives that make, compare, search, cut and format strings.

Patterns are compiled each time they are used.  Whether case is ignored is the value of a
variable.
-/

namespace EditorLisp

namespace Eval

def pattern (source : String) (fold : Bool) : Eval Regexp.Regex := do
  match (← session).host.engine.ofPattern source fold with
  | .ok regex => return regex
  | .error message => signal "invalid-regexp" [← text message]

/-- The same for a search, which may ignore case. -/
def searchPattern (source : String) : Eval Regexp.Regex := do
  let fold := ((← session).valueIn? "case-fold-search" Store.rootFrame).any Value.isTrue
  pattern source fold

end Eval

namespace Primitives

open Eval

/-- Require a string or a symbol, which stands for its name. -/
def stringOrName (v : Value) : Eval String :=
  match v with
  | .str _ s => pure s
  | other =>
    match other.symbolName? with
    | some name => pure name
    | none => wrongType "stringp" other

def character (v : Value) : Eval Char := do
  match charOfInt? (← integer v).toInt with
  | some c => return c
  | none => wrongType "characterp" v

def textOf (v : Value) : Eval String := do
  match v with
  | .str _ s => return s
  | .nil => return ""
  | other => return String.ofList (← (← sequenceElements other).mapM character)

def concat : Primitive := fun _ args => do
  text (String.join (← args.mapM textOf))

/-! ## Parts -/

/-- An index into something of a given length, counted from the end if negative; `none` if
it is out of range. -/
def resolveIndex (v : Option Value) (length default : Nat) : Eval (Option Nat) := do
  match v with
  | none => return some default
  | some v =>
    let n := (← integer v).toInt
    let i := if n < 0 then length + n else n
    return if 0 ≤ i ∧ i ≤ length then some i.toNat else none

/-- `(substring ARRAY &optional START END)`. -/
def substring : Primitive := fun _ args => do
  between "substring" args 1 3
  let v := arg args 0
  let items ← if isArray v then sequenceElements v else wrongType "arrayp" v
  let outOfRange : Eval Value := signal "args-out-of-range" args
  match ← resolveIndex (given? args 1) items.length 0 with
  | none => outOfRange
  | some start =>
    match ← resolveIndex (given? args 2) items.length items.length with
    | none => outOfRange
    | some stop =>
      if stop < start then outOfRange
      else
        match v with
        | .str _ s => text (String.ofList ((s.toList.drop start).take (stop - start)))
        | _ => vector ((items.drop start).take (stop - start))

/-! ## Comparison -/

def stringComparison (name : String) (test : String → String → Bool) : Primitive :=
  binary name fun a b => do
    let x ← stringOrName a
    let y ← stringOrName b
    bool (test x y)

def affix (name : String) (test : List Char → List Char → Bool) : Primitive := fun _ args => do
  between name args 2 3
  let part ← string (arg args 0)
  let whole ← string (arg args 1)
  if flag args 2 then bool (test (Text.lowerString part).toList (Text.lowerString whole).toList)
  else bool (test part.toList whole.toList)

/-! ## Joining, searching and replacing -/

/-- `(string-join STRINGS &optional SEPARATOR)`. -/
def stringJoin : Primitive := fun _ args => do
  between "string-join" args 1 2
  let parts ← (← properList (arg args 0)).mapM string
  let separator ← string? (given? args 1)
  text ((separator.getD "").intercalate parts)

/-- The first position from `pos` on at which a text stands. -/
def findText (needle : List Char) : Nat → List Char → Option Nat
  | pos, [] => if needle.isEmpty then some pos else none
  | pos, c :: rest =>
    if needle.isPrefixOf (c :: rest) then some pos else findText needle (pos + 1) rest

/-- `(string-search NEEDLE HAYSTACK &optional START)`. -/
def stringSearch : Primitive := fun _ args => do
  between "string-search" args 2 3
  let needle ← string (arg args 0)
  let haystack := (← string (arg args 1)).toList
  match ← resolveIndex (given? args 2) haystack.length 0 with
  | none => signal "args-out-of-range" [arg args 1]
  | some start =>
    match findText needle.toList start (haystack.drop start) with
    | some pos => return .ofNat pos
    | none => return .nil

/-- Replace a text wherever it stands, from left to right. -/
def replaceText (source target : List Char) : Nat → List Char → List Char → List Char
  | 0, out, rest => out.reverse ++ rest
  | _, out, [] => out.reverse
  | fuel + 1, out, c :: rest =>
    if source.isPrefixOf (c :: rest) then
      replaceText source target fuel (target.reverse ++ out) ((c :: rest).drop source.length)
    else replaceText source target fuel (c :: out) rest

def stringReplace : Primitive := fun _ args => do
  exactly "string-replace" args 3
  let source ← string (arg args 0)
  let target ← string (arg args 1)
  let s ← string (arg args 2)
  if source.isEmpty then signal "wrong-length-argument" [arg args 0]
  else text (String.ofList (replaceText source.toList target.toList (s.length + 1) [] s.toList))

/-! ## Case -/

def caseChange (name : String) (onString : String → String) (onChar : Char → List Char) : Primitive :=
  unary name fun v => do
    match v with
    | .str _ s => text (onString s)
    | .int _ =>
      let c ← character v
      return .ofNat ((onChar c).headD c).toNat
    | other => wrongType "char-or-string-p" other

/-- Raise the first letter of each word and lower the others. -/
def capitalizeFrom : Bool → List Char → List Char
  | _, [] => []
  | inWord, c :: rest =>
    if Text.isAlphanumeric c then
      (if inWord then Text.lower c else Text.upper c) ++ capitalizeFrom true rest
    else c :: capitalizeFrom false rest

/-! ## Characters -/

def makeString : Primitive := fun _ args => do
  between "make-string" args 2 3
  let n ← natural (arg args 0)
  let c ← character (arg args 1)
  text (String.ofList (List.replicate n c))

def charCodes (s : String) : List Value := s.toList.map fun c => .ofNat c.toNat

def stringToChar : Primitive := unary "string-to-char" fun v => do
  return (charCodes (← string v)).headD (.int 0)

/-! ## Display width -/

def wideRanges : List (Nat × Nat) :=
  [(0x1100, 0x115F), (0x2E80, 0xA4CF), (0xAC00, 0xD7A3), (0xF900, 0xFAFF), (0xFE30, 0xFE4F),
   (0xFF00, 0xFF60), (0xFFE0, 0xFFE6), (0x1F300, 0x1F64F), (0x1F900, 0x1F9FF),
   (0x20000, 0x3FFFD)]

def charWidth (c : Char) : Nat :=
  if wideRanges.any fun (first, last) => first ≤ c.toNat && c.toNat ≤ last then 2
  else if Text.isControl c then 0
  else 1

def textWidth (cs : List Char) : Nat := cs.foldr (fun c n => charWidth c + n) 0

def stringWidth : Primitive := fun _ args => do
  between "string-width" args 1 3
  return .ofNat (textWidth (← string (arg args 0)).toList)

/-- `(string-pad STRING LENGTH &optional PADDING START)`. -/
def stringPad : Primitive := fun _ args => do
  between "string-pad" args 2 4
  let s ← string (arg args 0)
  let length ← natural (arg args 1)
  let padding ← match given? args 2 with
    | some v => character v
    | none => pure ' '
  let fill := Format.copies padding (length - s.length)
  text (if flag args 3 then fill ++ s else s ++ fill)

/-- Take characters up to a column, leaving out those before a start column; the second
part is the column reached. -/
def takeColumns (start limit : Nat) : Nat → List Char → List Char → List Char × Nat
  | column, out, [] => (out.reverse, column)
  | column, out, c :: rest =>
    if limit < column + charWidth c then (out.reverse, column)
    else takeColumns start limit (column + charWidth c) (if start ≤ column then c :: out else out) rest

/-- `(truncate-string-to-width STRING END &optional START PADDING ELLIPSIS)`. -/
def truncateStringToWidth : Primitive := fun _ args => do
  between "truncate-string-to-width" args 2 6
  let s := (← string (arg args 0)).toList
  let stop ← natural (arg args 1)
  let start ← naturalOr 0 (given? args 2)
  let padding ← match given? args 3 with
    | some v => do pure (some (← character v))
    | none => pure none
  let ellipsis := match given? args 4 with
    | some (.str _ e) => e.toList
    | some _ => ['.', '.', '.']
    | none => []
  let tail := if stop < textWidth s then ellipsis else []
  let (body, column) := takeColumns start (stop - textWidth tail) 0 [] s
  let out := body ++ tail
  let fill := match padding with
    | some c => List.replicate (stop - (textWidth out + min start column)) c
    | none => []
  text (String.ofList (out ++ fill))

/-- `(propertize STRING ...)`: strings carry no properties, so it is the string itself. -/
def propertize : Primitive := fun _ args => do
  atLeast "propertize" args 1
  let _ ← string (arg args 0)
  return arg args 0

/-! ## Splitting and trimming -/

/-- What separates the parts of a string unless stated otherwise. -/
def defaultSeparators : String := "[ \x0c\t\n\r\x0b]+"

/-- What is trimmed unless stated otherwise. -/
def defaultTrim : String := "[ \t\n\r]+"

/-- A pattern that only the empty text matches. -/
def onlyEmpty : String := "\\`\\'"

/-- A text without what matches at its start and at its end. -/
def trimmed (left right : Regexp.Regex) (s : List Char) : List Char :=
  let start := match left.capturesAt s 0 with
    | some found => if found.whole.start = 0 then found.whole.stop else 0
    | none => 0
  let rest := s.drop (Text.charOffset s start)
  let atEnd := (right.captures rest).filter fun found => found.whole.stop = Text.byteLength rest
  match atEnd.getLast? with
  | some found => rest.take (Text.charOffset rest found.whole.start)
  | none => rest

/-- `(split-string STRING &optional SEPARATORS OMIT-NULLS TRIM)`. -/
def splitString : Primitive := fun _ args => do
  between "split-string" args 1 4
  let s := (← string (arg args 0)).toList
  let (source, omitNulls) ← match given? args 1 with
    | none => pure (defaultSeparators, true)
    | some v => do pure (← string v, flag args 2)
  let separators ← pattern source false
  let trim ← match given? args 3 with
    | none => pure none
    | some v => do pure (some (← pattern (← string v) false))
  let parts := separators.split s
  let parts := match trim with
    | some p => parts.map (trimmed p p)
    | none => parts
  let parts := if omitNulls then parts.filter (!·.isEmpty) else parts
  list (← parts.mapM fun part => text (String.ofList part))

def trimPattern (v : Option Value) : Eval Regexp.Regex := do
  match v with
  | none => pattern defaultTrim false
  | some v => pattern (← string v) false

/-- `(string-trim STRING &optional LEFT RIGHT)`. -/
def stringTrim : Primitive := fun _ args => do
  between "string-trim" args 1 3
  let s ← string (arg args 0)
  let left ← trimPattern (given? args 1)
  let right ← trimPattern (given? args 2)
  text (String.ofList (trimmed left right s.toList))

/-- `(string-trim-left STRING &optional REGEXP)`. -/
def stringTrimLeft : Primitive := fun _ args => do
  between "string-trim-left" args 1 2
  let s ← string (arg args 0)
  let left ← trimPattern (given? args 1)
  let never ← pattern onlyEmpty false
  text (String.ofList (trimmed left never s.toList))

/-- `(string-trim-right STRING &optional REGEXP)`. -/
def stringTrimRight : Primitive := fun _ args => do
  between "string-trim-right" args 1 2
  let s ← string (arg args 0)
  let right ← trimPattern (given? args 1)
  let never ← pattern onlyEmpty false
  text (String.ofList (trimmed never right s.toList))

/-! ## Formatting -/

/-- Print a value, so that it can be read back if asked for. -/
def printed (s : Session) (quoted : Bool) (v : Value) : String := if quoted then s.print v else s.display v

def formatted (control : String) (args : List Value) : Eval String := do
  let s ← session
  match Format.format (printed s) control args with
  | .ok out => return out
  | .error .notEnoughArguments => error "Not enough arguments for format string"
  | .error .unfinished => error "Format string ends in middle of format specifier"
  | .error (.notInteger v) =>
    error ("Format specifier doesn't match argument type: " ++ s.print v)
  | .error .notNumber => error "Format specifier doesn't match argument type"
  | .error (.notCharacter v) => do
    let _ ← integer v
    wrongType "characterp" v
  | .error (.unknown letter) => error ("Invalid format operation %" ++ letter.toString)
  | .error .tooLong => crash

def format : Primitive := fun _ args => do
  atLeast "format" args 1
  let control ← string (arg args 0)
  text (← formatted control (args.drop 1))

/-- `(prin1-to-string VALUE &optional PLAIN)`. -/
def prin1ToString : Primitive := fun _ args => do
  between "prin1-to-string" args 1 3
  text (printed (← session) (!flag args 1) (arg args 0))

def strings : List (String × Primitive) :=
  [("concat", concat), ("substring", substring), ("substring-no-properties", substring),
   ("string=", stringComparison "string=" (· == ·)),
   ("string-equal", stringComparison "string=" (· == ·)),
   ("string<", stringComparison "string<" fun a b => a < b),
   ("string-lessp", stringComparison "string<" fun a b => a < b),
   ("string>", stringComparison "string>" fun a b => b < a),
   ("string-greaterp", stringComparison "string>" fun a b => b < a),
   ("string-prefix-p", affix "string-prefix-p" List.isPrefixOf),
   ("string-suffix-p", affix "string-suffix-p" List.isSuffixOf),
   ("string-empty-p", unary "string-empty-p" fun v => do bool (← stringOrName v).isEmpty),
   ("string-join", stringJoin), ("string-search", stringSearch),
   ("string-replace", stringReplace),
   ("upcase", caseChange "upcase" Text.upperString Text.upper),
   ("downcase", caseChange "downcase" Text.lowerString Text.lower),
   ("capitalize", caseChange "capitalize"
      (fun s => String.ofList (capitalizeFrom false s.toList)) Text.upper),
   ("make-string", makeString),
   ("string", fun _ args => do text (String.ofList (← args.mapM character))),
   ("char-to-string", unary "char-to-string" fun v => do text (← character v).toString),
   ("string-to-char", stringToChar),
   ("string-to-list", unary "string-to-list" fun v => do list (charCodes (← string v))),
   ("string-to-vector", unary "string-to-vector" fun v => do vector (charCodes (← string v))),
   ("string-width", stringWidth), ("string-pad", stringPad),
   ("truncate-string-to-width", truncateStringToWidth),
   ("string-reverse", unary "string-reverse" fun v => do
      text (String.ofList (← string v).toList.reverse)),
   ("propertize", propertize),
   ("regexp-quote", unary "regexp-quote" fun v => do text (Regexp.quote (← string v))),
   ("split-string", splitString), ("string-trim", stringTrim),
   ("string-trim-left", stringTrimLeft), ("string-trim-right", stringTrimRight),
   ("format", format), ("prin1-to-string", prin1ToString)]

end Primitives

end EditorLisp
