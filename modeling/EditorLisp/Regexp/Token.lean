/-!
# Tokens of patterns

Patterns are written with backslashes before the signs that group, and with signs of
repetition that are ordinary characters at the start of a pattern, a group or an
alternative.  Scanning resolves all of this: afterwards a token means the same wherever it
stands.
-/

namespace EditorLisp.Regexp

/-- The classes of characters that have a name inside brackets. -/
inductive NamedClass where
  | alpha | digit | alnum | upper | lower | space | blank | punct | xdigit | cntrl | graph | print
  | word | ascii | nonascii | multibyte | unibyte
deriving Repr, DecidableEq

namespace NamedClass

def ofName? (name : String) : Option NamedClass :=
  [("alpha", alpha), ("digit", digit), ("alnum", alnum), ("upper", upper), ("lower", lower),
   ("space", space), ("blank", blank), ("punct", punct), ("xdigit", xdigit), ("cntrl", cntrl),
   ("graph", graph), ("print", print), ("word", word), ("ascii", ascii), ("nonascii", nonascii),
   ("multibyte", multibyte), ("unibyte", unibyte)].lookup name

end NamedClass

/-- The kinds of characters that a pattern names by a syntax code. -/
inductive Category where
  | blank | word | symbol | punctuation | opener | closer | quote
deriving Repr, DecidableEq

namespace Category

def ofCode? : Char → Option Category
  | '-' | ' ' => some blank
  | 'w' => some word
  | '_' => some symbol
  | '.' => some punctuation
  | '(' => some opener
  | ')' => some closer
  | '"' => some quote
  | _ => none

end Category

/-- One item of a bracketed set. -/
inductive SetItem where
  | char (c : Char)
  | range (first last : Char)
  | named (cls : NamedClass)
deriving Repr, DecidableEq

inductive CharSet where
  | char (c : Char)
  /-- Any character but a newline. -/
  | any
  /-- The characters of a category, or all others. -/
  | category (kind : Category) (negated : Bool)
  /-- The characters of a bracketed set, or all others. -/
  | bracket (items : List SetItem) (negated : Bool)
deriving Repr, DecidableEq

/-- A sign of a pattern. -/
inductive Token where
  /-- A place for one character. -/
  | one (set : CharSet)
  | lineStart | lineEnd | textStart | textEnd
  | wordEdge | notWordEdge
  /-- Any number of times. -/
  | star
  /-- At least once. -/
  | plus
  /-- At most once; after another repetition, as few times as possible. -/
  | question
  /-- As often as the bounds say. -/
  | bounds (spec : String)
  | openGroup | openShy | close
  | alternative
deriving Repr, DecidableEq

/-- What is wrong with a pattern. -/
inductive Fault where
  | trailingBackslash
  | badGroup
  | unmatchedOpen
  | unmatchedClose
  | badBounds
  | unmatchedBrace
  | badUnderscore
  | missingCode
  | badCode (code : Char)
  | backReference
  | unmatchedBracket
  | badRange
  | badClassName (name : String)
deriving Repr, DecidableEq

def Fault.message : Fault → String
  | trailingBackslash => "Trailing backslash"
  | badGroup => "Invalid \\(? group"
  | unmatchedOpen => "Unmatched \\("
  | unmatchedClose => "Unmatched ) or \\)"
  | badBounds => "Invalid content of \\\x7b\\\x7d"
  | unmatchedBrace => "Unmatched \\\x7b"
  | badUnderscore => "Invalid \\_ escape"
  | missingCode => "Missing syntax code"
  | badCode code => "Invalid syntax code " ++ code.toString
  | backReference => "Back references are not supported"
  | unmatchedBracket => "Unmatched [ or [^"
  | badRange => "Invalid range end"
  | badClassName name => "Invalid character class name " ++ name

/-! ## Bracketed sets -/

/-- The text up to a colon and a closing bracket, and the text after them. -/
def className? : List Char → Option (List Char × List Char)
  | ':' :: ']' :: rest => some ([], rest)
  | c :: rest => (className? rest).map fun (name, after) => (c :: name, after)
  | [] => none

/-- Read the items of a bracketed set up to its end.  A closing bracket that comes first
is an item. -/
def setItems : Nat → Bool → List SetItem → List Char → Except Fault (List SetItem × List Char)
  | 0, _, _, _ => .error .unmatchedBracket
  | _, _, _, [] => .error .unmatchedBracket
  | fuel + 1, isFirst, items, c :: rest =>
    if c = ']' ∧ !isFirst then .ok (items.reverse, rest)
    else
      let plain : Except Fault (List SetItem × List Char) :=
        match rest with
        | '-' :: last :: after =>
          if last = ']' then setItems fuel false (.char c :: items) rest
          else if last < c then .error .badRange
          else setItems fuel false (.range c last :: items) after
        | _ => setItems fuel false (.char c :: items) rest
      match c, rest with
      | '[', ':' :: body =>
        match className? body with
        | some (name, after) =>
          match NamedClass.ofName? (String.ofList name) with
          | some cls => setItems fuel false (.named cls :: items) after
          | none => .error (.badClassName (String.ofList name))
        | none => plain
      | _, _ => plain

/-- Read a bracketed set after its opening bracket. -/
def bracketSet (cs : List Char) : Except Fault (CharSet × List Char) := do
  let (negated, body) := match cs with
    | '^' :: rest => (true, rest)
    | _ => (false, cs)
  let (items, rest) ← setItems (cs.length + 1) true [] body
  return (.bracket items negated, rest)

/-! ## Escapes -/

/-- Read the bounds of a repetition after their opening brace.  A missing lower bound is
zero. -/
def boundsText : List Char → List Char → Except Fault (String × List Char)
  | _, [] => .error .unmatchedBrace
  | spec, '\\' :: '\x7d' :: rest =>
    let spec := spec.reverse
    let spec := if spec.isEmpty then ['0'] else if spec.head? = some ',' then '0' :: spec else spec
    .ok (String.ofList spec, rest)
  | spec, c :: rest =>
    if c.isDigit || c = ',' then boundsText (c :: spec) rest else .error .badBounds

/-- What follows a backslash: the tokens it stands for, how it changes the depth of
groups, whether a pattern, group or alternative starts after it, and the rest. -/
structure Escape where
  tokens : List Token
  depth : Nat
  atStart : Bool
  rest : List Char

def escape (depth : Nat) (atStart : Bool) : List Char → Except Fault Escape
  | [] => .error .trailingBackslash
  | c :: rest =>
    let edge (token : Token) (rest : List Char) : Except Fault Escape := .ok ⟨[token], depth, atStart, rest⟩
    let place (set : CharSet) (rest : List Char) : Except Fault Escape :=
      .ok ⟨[.one set], depth, false, rest⟩
    match c with
    | '(' =>
      match rest with
      | '?' :: more =>
        match more.dropWhile Char.isDigit with
        | ':' :: after =>
          let token := if more.head? = some ':' then Token.openShy else .openGroup
          .ok ⟨[token], depth + 1, true, after⟩
        | _ => .error .badGroup
      | _ => .ok ⟨[.openGroup], depth + 1, true, rest⟩
    | ')' =>
      match depth with
      | 0 => .error .unmatchedClose
      | outer + 1 => .ok ⟨[.close], outer, false, rest⟩
    | '|' => .ok ⟨[.alternative], depth, true, rest⟩
    | '\x7b' => do
      let (spec, rest) ← boundsText [] rest
      return ⟨[.bounds spec], depth, atStart, rest⟩
    | '<' | '>' | 'b' => edge .wordEdge rest
    | 'B' => edge .notWordEdge rest
    | 'w' => place (.category .word false) rest
    | 'W' => place (.category .word true) rest
    | '`' => edge .textStart rest
    | '\'' => edge .textEnd rest
    | '=' => .ok ⟨[], depth, atStart, rest⟩
    | '_' =>
      match rest with
      | '<' :: after | '>' :: after => edge .wordEdge after
      | _ => .error .badUnderscore
    | 's' | 'S' =>
      match rest with
      | [] => .error .missingCode
      | code :: after =>
        match Category.ofCode? code with
        | some kind => place (.category kind (c = 'S')) after
        | none => .error (.badCode code)
    | other =>
      if '1' ≤ other ∧ other ≤ '9' then .error .backReference else place (.char other) rest

/-! ## Scanning -/

def endsHere : List Char → Bool
  | [] => true
  | '\\' :: ')' :: _ | '\\' :: '|' :: _ => true
  | _ => false

/-- Scan the rest of a pattern.  Every step takes at least one character, so a counter
that starts above the length never runs out. -/
def scanFrom : Nat → Nat → Bool → List Char → Except Fault (List Token)
  | _, depth, _, [] => if depth = 0 then .ok [] else .error .unmatchedOpen
  | 0, _, _, _ => .ok []
  | fuel + 1, depth, atStart, c :: rest => do
    match c with
    | '\\' =>
      let e ← escape depth atStart rest
      return e.tokens ++ (← scanFrom fuel e.depth e.atStart e.rest)
    | '[' =>
      let (set, rest) ← bracketSet rest
      return .one set :: (← scanFrom fuel depth false rest)
    | '^' =>
      if atStart then return .lineStart :: (← scanFrom fuel depth true rest)
      else return .one (.char '^') :: (← scanFrom fuel depth false rest)
    | '$' =>
      let token := if endsHere rest then Token.lineEnd else .one (.char '$')
      return token :: (← scanFrom fuel depth false rest)
    | '.' => return .one .any :: (← scanFrom fuel depth false rest)
    | c =>
      let sign? : Option Token :=
        if atStart then none
        else if c = '*' then some .star
        else if c = '+' then some .plus
        else if c = '?' then some .question
        else none
      match sign? with
      | none => return .one (.char c) :: (← scanFrom fuel depth false rest)
      | some sign =>
        match rest with
        | '?' :: after => return sign :: .question :: (← scanFrom fuel depth false after)
        | _ => return sign :: (← scanFrom fuel depth false rest)

def tokens (pattern : String) : Except Fault (List Token) :=
  scanFrom (pattern.length + 1) 0 true pattern.toList

def quote (s : String) : String :=
  String.ofList (s.toList.flatMap fun c => if "[*.\\?+^$".contains c then ['\\', c] else [c])

end EditorLisp.Regexp
