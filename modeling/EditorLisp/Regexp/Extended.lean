import EditorLisp.Regexp.Token

/-!
# Extended notation

The same pattern in the notation of the engine, in which the bare signs group and repeat.  How a
character is written that is to stand for itself there, the engine says.  The pattern opens with
the mark for anchors that match at every line.
-/

namespace EditorLisp.Regexp

def setCharText (c : Char) : String :=
  if "\\][^-&~".contains c then "\\" ++ c.toString else c.toString

def NamedClass.text : NamedClass → String
  | alpha => "[:alpha:]"
  | digit => "[:digit:]"
  | alnum => "[:alnum:]"
  | upper => "[:upper:]"
  | lower => "[:lower:]"
  | space => "[:space:]"
  | blank => "[:blank:]"
  | punct => "[:punct:]"
  | xdigit => "[:xdigit:]"
  | cntrl => "[:cntrl:]"
  | graph => "[:graph:]"
  | print => "[:print:]"
  | word => "\\w"
  | ascii => "\\x00-\\x7F"
  | nonascii => "[^\\x00-\\x7F]"
  | multibyte => "[^\\x00-\\xFF]"
  | unibyte => "\\x00-\\xFF"

def SetItem.text : SetItem → String
  | .char c => setCharText c
  | .range first last => setCharText first ++ "-" ++ setCharText last
  | .named cls => cls.text

def Category.inside? : Category → Option String
  | blank | word => none
  | symbol => some "\\w_$&*+\\-/<=>"
  | punctuation => some "[:punct:]"
  | opener => some "(\\[\x7b"
  | closer => some ")\\]\x7d"
  | quote => some "\""

def Category.text (kind : Category) (negated : Bool) : String :=
  match kind, kind.inside? with
  | .quote, some inside => if negated then "[^" ++ inside ++ "]" else inside
  | .word, _ => if negated then "\\W" else "\\w"
  | _, some inside => (if negated then "[^" else "[") ++ inside ++ "]"
  | _, none => if negated then "\\S" else "\\s"

def CharSet.text (escape : Char → String) : CharSet → String
  | char c => escape c
  | any => "."
  | category kind negated => kind.text negated
  | bracket items negated =>
    (if negated then "[^" else "[") ++ String.join (items.map SetItem.text) ++ "]"

def Token.text (escape : Char → String) : Token → String
  | one set => set.text escape
  | lineStart => "^"
  | lineEnd => "$"
  | textStart => "\\A"
  | textEnd => "\\z"
  | wordEdge => "\\b"
  | notWordEdge => "\\B"
  | star => "*"
  | plus => "+"
  | question => "?"
  | bounds spec => "\x7b" ++ spec ++ "\x7d"
  | openGroup => "("
  | openShy => "(?:"
  | close => ")"
  | alternative => "|"

def extended (escape : Char → String) (pattern : String) : Except Fault String := do
  return "(?m)" ++ String.join ((← tokens pattern).map (Token.text escape))

end EditorLisp.Regexp
