import EditorLisp.Regexp.Extended

/-!
# Reading the extended notation

The automaton reads the extended notation as far as patterns are brought into it, back into the
signs that it was made of.  Sets that had a name of their own come back as bracketed ones.
-/

namespace EditorLisp.Regexp

/-- Why the automaton refuses a pattern. -/
inductive Refusal where
  | unreadable
  | nothingToRepeat
  /-- The bounds of a repetition are not two numbers in order. -/
  | badCount
  /-- Groups and repetitions are nested too deeply. -/
  | tooDeep
  | tooLarge
deriving Repr, DecidableEq

def Refusal.message : Refusal → String
  | unreadable => "Unreadable"
  | nothingToRepeat => "Nothing to repeat"
  | badCount => "Invalid repetition count"
  | tooDeep => "Too deeply nested"
  | tooLarge => "Regular expression too big"

def isSign (c : Char) : Bool := "\\.+*?()|[]\x7b\x7d^$#&-~".toList.contains c

/-- A character with a backslash before it where it needs one. -/
def literalText (c : Char) : String := if isSign c then "\\" ++ c.toString else c.toString

/-! ## Bracketed sets -/

def namedClasses : List NamedClass :=
  [.alpha, .digit, .alnum, .upper, .lower, .space, .blank, .punct, .xdigit, .cntrl, .graph, .print,
   .word, .ascii, .nonascii, .multibyte, .unibyte]

/-- The class whose text comes first.  No other item begins like one of them. -/
def readClass? (cs : List Char) : Option (NamedClass × List Char) :=
  namedClasses.findSome? fun cls => (cls.text.toList.isPrefixOf? cs).map fun rest => (cls, rest)

def readSetChar? : List Char → Option (Char × List Char)
  | '\\' :: c :: rest => some (c, rest)
  | c :: rest => some (c, rest)
  | [] => none

def readItems : Nat → List SetItem → List Char → Option (List SetItem × List Char)
  | 0, _, _ => none
  | _ + 1, items, ']' :: rest => some (items.reverse, rest)
  | fuel + 1, items, cs =>
    match readClass? cs with
    | some (cls, rest) => readItems fuel (.named cls :: items) rest
    | none => do
      let (first, rest) ← readSetChar? cs
      match rest with
      | '-' :: rest => do
        let (last, rest) ← readSetChar? rest
        readItems fuel (.range first last :: items) rest
      | rest => readItems fuel (.char first :: items) rest

/-- Read a bracketed set after its opening bracket. -/
def readSet (cs : List Char) : Option (CharSet × List Char) := do
  let (negated, body) := match cs with
    | '^' :: rest => (true, rest)
    | _ => (false, cs)
  let (items, rest) ← readItems (body.length + 1) [] body
  return (.bracket items negated, rest)

/-! ## Signs -/

/-- What a character stands for after a backslash. -/
def escapedToken : Char → Token
  | 'A' => .textStart
  | 'z' => .textEnd
  | 'b' => .wordEdge
  | 'B' => .notWordEdge
  | 'w' => .one (.category .word false)
  | 'W' => .one (.category .word true)
  | 's' => .one (.category .blank false)
  | 'S' => .one (.category .blank true)
  | c => .one (.char c)

/-- What a character stands for by itself. -/
def plainToken : Char → Token
  | '.' => .one .any
  | '^' => .lineStart
  | '$' => .lineEnd
  | '*' => .star
  | '+' => .plus
  | '?' => .question
  | '(' => .openGroup
  | ')' => .close
  | '|' => .alternative
  | c => .one (.char c)

/-- Read the first sign. -/
def readToken : List Char → Option (Token × List Char)
  | [] => none
  | '\\' :: c :: rest => some (escapedToken c, rest)
  | '(' :: '?' :: ':' :: rest => some (.openShy, rest)
  | '\x7b' :: rest =>
    let spec := rest.takeWhile (· ≠ '\x7d')
    some (.bounds (String.ofList spec), rest.drop (spec.length + 1))
  | '[' :: rest => (readSet rest).map fun (set, rest) => (.one set, rest)
  | c :: rest => some (plainToken c, rest)

/-- Read the rest of a pattern.  Every step takes at least one character. -/
def readTokens : Nat → List Char → Except Refusal (List Token)
  | _, [] => .ok []
  | 0, _ => .error .unreadable
  | fuel + 1, cs =>
    match readToken cs with
    | some (token, rest) => return token :: (← readTokens fuel rest)
    | none => .error .unreadable

/-- The signs of a pattern, and whether it ignores case. -/
def readPattern (source : String) : Except Refusal (Bool × List Token) := do
  let (fold, cs) := match "(?i)".toList.isPrefixOf? source.toList with
    | some rest => (true, rest)
    | none => (false, source.toList)
  match "(?m)".toList.isPrefixOf? cs with
  | some rest => return (fold, ← readTokens rest.length rest)
  | none => .error .unreadable

end EditorLisp.Regexp
