import EditorLisp.Primitives.Editing

/-!
# Searching and match data

A search in a buffer records positions counted from one and moves the point; a search in a
string records offsets counted from zero.  The engine counts bytes, so a search goes to bytes with
where it starts and comes back from them with what it has found.  Searches for a literal text go
through the same engine with the text quoted.
-/

namespace EditorLisp.Primitives

open Eval

/-- Spans as match data records them, shifted by where counting starts. -/
def recorded (spans : Regexp.Spans) (base : Nat) : List (Int × Int) :=
  spans.map fun
    | some (start, stop) => ((start + base : Nat), (stop + base : Nat))
    | none => MatchData.noSpan

/-- Set what the last search matched. -/
def setMatchData (m : Option MatchData) : Eval Unit := modify fun s => { s with matchData := m }

/-! ## In buffers -/

/-- The first match at a position or behind it, in the text up to a bound. -/
def findForward (r : Regexp.Regex) (text : List Char) (bound pos : Nat) : Option Regexp.Spans :=
  let text := text.take bound
  (r.capturesAt text (Text.byteOffset text pos)).map (·.spans)

/-- The match at a position of a text, or else at the nearest one before it, trying so many. -/
def findBackward (r : Regexp.Regex) (text : List Char) : Nat → Nat → Option Regexp.Spans
  | 0, _ => none
  | tries + 1, pos =>
    match r.matchAt? text (Text.byteOffset text pos) with
    | some found => some found.spans
    | none => findBackward r text tries (pos - 1)

/-- One of the searches that a search is made of.  Backward it looks at the text up to where it
starts, for a match that starts at the bound or behind it. -/
def searchOnce (r : Regexp.Regex) (text : List Char) (bound : Nat) (backward : Bool) (pos : Nat) :
    Option Regexp.Spans :=
  if backward then findBackward r (text.take pos) (pos - bound + 1) pos
  else findForward r text bound pos

/-- Search so many times, each time from where the last match ended.  An empty match is
stepped over. -/
def searchTimes (r : Regexp.Regex) (text : List Char) (bound : Nat) (backward : Bool) :
    Nat → Nat → Option Regexp.Spans → Option Regexp.Spans
  | 0, _, last => last
  | n + 1, pos, _ =>
    match searchOnce r text bound backward pos with
    | none => none
    | some spans =>
      let (start, stop) := spans.whole
      let next :=
        if backward then start
        else if start = stop ∧ stop < bound then stop + 1
        else stop
      if next = pos then
        -- The next search would find the same match again.
        some spans
      else searchTimes r text bound backward n next (some spans)

def searchBuffer (source : String) (args : List Value) (backward : Bool) : Eval Value := do
  let r ← searchPattern source
  let id ← currentId
  let count ← countArg args 3
  let backward := backward != decide (count.toInt < 0)
  let b ← currentBuffer
  let bound ← match given? args 1 with
    | none => pure (if backward then 0 else b.size)
    | some v => do pure (b.clamp (← below (← integer v)).toInt.toNat)
  if (if backward then b.point < bound else bound < b.point) then
    error "Invalid search bound (wrong side of point)"
  else
    let times := max count.toInt.natAbs 1
    match searchTimes r b.text.toList bound backward times b.point none with
    | some spans =>
      setMatchData (some ⟨recorded spans 1, .buffer id⟩)
      let target := if backward then spans.whole.1 else spans.whole.2
      modifyCurrent (·.goto target)
      return position target
    | none =>
      setMatchData none
      match arg args 2 with
      | .nil => signal "search-failed" [← text source]
      | .t => return .nil
      | _ =>
        modifyCurrent (·.goto bound)
        return .nil

def search (name : String) (literal backward : Bool) : Primitive := fun _ args => do
  between name args 1 4
  let source ← string (arg args 0)
  searchBuffer (if literal then Regexp.quote source else source) args backward

def lookingAt (record : Bool) (source : Value) : Eval Value := do
  let r ← searchPattern (← string source)
  let id ← currentId
  let b ← currentBuffer
  let chars := b.text.toList
  let found := r.matchAt? chars (Text.byteOffset chars b.point)
  if record then setMatchData (found.map fun found => ⟨recorded found.spans 1, .buffer id⟩)
  bool found.isSome

def lookingAtForm : Primitive := fun _ args => do
  between "looking-at" args 1 2
  lookingAt true (arg args 0)

/-! ## In strings -/

/-- Search in a string; the answer is where the match starts. -/
def stringMatch (name : String) (maximum : Nat) (record : Bool) : Primitive := fun _ args => do
  between name args 2 maximum
  let r ← searchPattern (← string (arg args 0))
  let chars := (← string (arg args 1)).toList
  match ← resolveIndex (given? args 2) chars.length 0 with
  | none => signal "args-out-of-range" [arg args 1, arg args 2]
  | some start =>
    let found := (r.capturesAt chars (Text.byteOffset chars start)).map (·.spans)
    if record then setMatchData (found.map fun spans => ⟨recorded spans 0, .string⟩)
    match found with
    | some spans => return .ofNat spans.whole.1
    | none => return .nil

/-! ## Match data -/

/-- One end of a group of the last match. -/
def matchEnd (name : String) (side : Int × Int → Int) : Primitive := unary name fun v => do
  let n ← natural v
  match (← session).matchData.bind (·.group? n) with
  | some span => return .int (Int64.ofInt (side span))
  | none => return .nil

/-- The offsets of a span whose positions count from one. -/
def bufferOffsets? (span : Int × Int) : Option (Nat × Nat) :=
  if 1 ≤ span.1 ∧ 1 ≤ span.2 then some ((span.1 - 1).toNat, (span.2 - 1).toNat) else none

/-- The text of a group of the last match, taken from a string if one is given. -/
def matchedText? (s : Session) (n : Nat) (source : Option String) : Option String := do
  let m ← s.matchData
  let (start, stop) ← m.group? n
  match source, m.source with
  | some text, _ =>
    -- A span that ends before it starts goes to the end of the string.
    let tail := text.toList.drop start.toNat
    some (String.ofList (if stop < start then tail else tail.take (stop - start).toNat))
  | none, .buffer id =>
    let b ← s.workspace.buffer? id
    let (start, stop) ← bufferOffsets? (start, stop)
    some (b.substring start stop)
  | none, .string => none

/-- `(match-string N &optional STRING)`. -/
def matchString : Primitive := fun _ args => do
  between "match-string" args 1 2
  let n ← natural (arg args 0)
  let source ← string? (given? args 1)
  match matchedText? (← session) n source with
  | some out => text out
  | none => return .nil

/-- `(match-data)`. -/
def matchDataList : Primitive := fun _ args => do
  atMost "match-data" args 3
  let flat := (((← session).matchData).map MatchData.flat).getD []
  list (flat.map fun
    | some n => .int (Int64.ofInt n)
    | none => .nil)

/-- A position in match data, `-1` for `nil`. -/
def matchPosition (v : Value) : Eval Int := do
  if v.isNil then return -1 else return (← integer v).toInt

def matchSpans : List Value → Eval (List (Int × Int))
  | [] => pure []
  | [v] => do
    let _ ← matchPosition v
    return [MatchData.noSpan]
  | v :: w :: rest => do
    let start ← matchPosition v
    let stop ← matchPosition w
    let span := if start < 0 ∨ stop < 0 then MatchData.noSpan else (start, stop)
    return span :: (← matchSpans rest)

/-- `(set-match-data LIST)`: where the last match was stays. -/
def setMatchDataForm : Primitive := fun _ args => do
  between "set-match-data" args 1 2
  let items ← properList (arg args 0)
  if items.isEmpty then setMatchData none
  else
    let groups ← matchSpans items
    let source := (((← session).matchData).map MatchData.source).getD .string
    setMatchData (some ⟨groups, source⟩)
  return .nil

/-! ## Replacement -/

def replaceSpan (s : List Char) (start stop : Nat) (replacement : String) : String :=
  String.ofList (s.take start) ++ replacement ++ String.ofList (s.drop stop)

/-- Replace a span of the last match in its buffer and go behind the replacement. -/
def replaceInBuffer (id : Nat) (span : Int × Int) (replacement : String) : Eval Value := do
  match (← workspace).buffer? id with
  | none => error "Selecting deleted buffer"
  | some b =>
    match (bufferOffsets? span).filter fun (start, stop) => start ≤ stop && stop ≤ b.size with
    | none =>
      signal "args-out-of-range" [.int (Int64.ofInt span.1), .int (Int64.ofInt span.2)]
    | some (start, stop) =>
      modifyBuffer id fun b =>
        (b.replaceRegion start stop replacement).goto (start + replacement.length)
      setMatchData none
      return .nil

/-- `(replace-match NEW &optional FIXEDCASE LITERAL STRING GROUP)`. -/
def replaceMatch : Primitive := fun _ args => do
  between "replace-match" args 1 5
  let template ← string (arg args 0)
  let source ← string? (given? args 3)
  let n ← naturalOr 0 (given? args 4)
  let s ← session
  match s.matchData with
  | none => error "replace-match called before any match found"
  | some m =>
    match m.group? n with
    | none => signal "args-out-of-range" [.ofNat n]
    | some span =>
      let replacement :=
        if flag args 2 then template
        else expandTemplate (fun n => matchedText? s n source) template.toList ""
      match source, m.source with
      | some whole, _ => text (replaceSpan whole.toList span.1.toNat span.2.toNat replacement)
      | none, .buffer id => replaceInBuffer id span replacement
      | none, .string => error "replace-match: last match was not in a buffer"

/-- Replace a group of each match of a text in turn, the text up to a byte offset being done.  The
replacement is a template, or a function of the matched text that returns one; a match without the
group stays as it is.  A match that starts before the last one has ended cannot be put together
with it. -/
def replaceMatches (I : Interp) (replacement : Value) (literal : Bool) (group : Nat)
    (chars : List Char) : Nat → String → List (Regexp.Captures chars) → Eval String
  | done, out, [] => do
    return out ++ String.ofList (← granted (Text.slice? chars done (Text.byteLength chars)))
  | done, out, found :: more => do
    let template ← match replacement with
      | .str _ template => pure template
      | function => do
        setMatchData (some ⟨recorded found.spans 0, .string⟩)
        string (← I.apply function [← text found.whole.text])
    let new :=
      if literal then template
      else expandTemplate (fun n => (found.group? n).map (·.text)) template.toList ""
    match found.group? group with
    | none => replaceMatches I replacement literal group chars done out more
    | some target => do
      let kept ← granted (Text.slice? chars done target.start)
      let out := out ++ String.ofList kept ++ new
      replaceMatches I replacement literal group chars target.stop out more

/-- `(replace-regexp-in-string REGEXP NEW STRING &optional FIXEDCASE LITERAL GROUP START)`:
the answer starts at the start. -/
def replaceRegexpInString : Primitive := fun I args => do
  between "replace-regexp-in-string" args 3 7
  let r ← searchPattern (← string (arg args 0))
  let whole ← string (arg args 2)
  let group ← naturalOr 0 (given? args 5)
  let start ← naturalOr 0 (given? args 6)
  let chars := whole.toList.drop start
  text (← replaceMatches I (arg args 1) (flag args 4) group chars 0 "" (r.captures chars))

def searches : List (String × Primitive) :=
  let forward := search "re-search-forward" false false
  let backward := search "re-search-backward" false true
  [("search-forward", search "search-forward" true false),
   ("search-backward", search "search-backward" true true),
   ("re-search-forward", forward), ("search-forward-regexp", forward),
   ("re-search-backward", backward), ("search-backward-regexp", backward),
   ("looking-at", lookingAtForm), ("looking-at-p", unary "looking-at-p" (lookingAt false)),
   ("string-match", stringMatch "string-match" 4 true),
   ("string-match-p", stringMatch "string-match-p" 3 false),
   ("match-beginning", matchEnd "match-beginning" Prod.fst),
   ("match-end", matchEnd "match-end" Prod.snd),
   ("match-string", matchString), ("match-string-no-properties", matchString),
   ("match-data", matchDataList), ("set-match-data", setMatchDataForm),
   ("replace-match", replaceMatch), ("replace-regexp-in-string", replaceRegexpInString)]

end EditorLisp.Primitives
