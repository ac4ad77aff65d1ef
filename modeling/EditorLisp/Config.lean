import EditorLisp.Files
import EditorLisp.Number.Literal
import EditorLisp.Text.Blank

/-!
# Configuration

The variables that a session inherits, and its settings: where programs are looked for, how deep
evaluation may nest, and whether a feature that no file provides counts as provided.
-/

namespace EditorLisp

/-!
## Environment variables

They come from whoever started the session, and are substituted in file names.
-/

/-- Environment variables with their values. -/
structure Environment where
  /-- The names with their values; of two entries with one name the first counts. -/
  entries : List (String × String) := []
deriving Repr, DecidableEq, Inhabited

namespace Environment

def get? (e : Environment) (name : String) : Option String := e.entries.lookup name

/-- The home directory; the root if none is set. -/
def home (e : Environment) : String := (e.get? "HOME").getD "/"

def searchPath (e : Environment) : List String := ((e.get? "PATH").getD "").splitOn ":"

/-- The text up to a character, and the text after it, if it occurs. -/
def splitAtChar (c : Char) : List Char → Option (List Char × List Char)
  | [] => none
  | d :: rest =>
    if d = c then some ([], rest)
    else (splitAtChar c rest).map fun (before, after) => (d :: before, after)

/-- Whether a character may stand in a variable's name without braces. -/
def inName (c : Char) : Bool := c.isAlphanum || c == '_'

/-- Replace variables in a text that is at most `fuel` characters long. -/
def substituteFrom (e : Environment) : Nat → List Char → List Char
  | 0, text => text
  | _, [] => []
  | fuel + 1, '$' :: '$' :: rest => '$' :: e.substituteFrom fuel rest
  | fuel + 1, '$' :: rest =>
    let (name, after) :=
      match rest with
      | '\x7b' :: braced => (splitAtChar '\x7d' braced).getD ([], rest)
      | _ => (rest.takeWhile inName, rest.dropWhile inName)
    let value :=
      if name.isEmpty then ['$'] else ((e.get? (String.ofList name)).getD "").toList
    value ++ e.substituteFrom fuel after
  | fuel + 1, c :: rest => c :: e.substituteFrom fuel rest

/-- Replace names after a dollar sign, with or without braces, by their values; two dollar
signs stand for one, and a variable that is not set for nothing. -/
def substitute (e : Environment) (text : String) : String :=
  String.ofList (e.substituteFrom (text.length + 1) text.toList)

end Environment

/-! ## Settings -/

/-- The settings of a session. -/
structure Config where
  /-- The directories searched for programs, in order. -/
  loadPath : List String := ["."]
  /-- The nesting beyond which evaluation fails. -/
  maxDepth : Nat := 1600
  /-- Whether a feature that cannot be found counts as provided. -/
  assumeFeatures : Bool := true
deriving Repr, DecidableEq, Inhabited

namespace Config

/-- The environment variable that extends the load path. -/
def loadPathVariable : String := "ELCOMPAT_LOAD_PATH"

/-- The environment variable that sets the nesting limit. -/
def maxDepthVariable : String := "ELCOMPAT_MAX_EVAL_DEPTH"

/-- A positive number that fits a machine word, with an optional plus sign. -/
def positive? (text : String) : Option Nat :=
  let word := Text.trim text.toList
  let digits := match word with
    | '+' :: rest => rest
    | _ => word
  if digits.isEmpty || !digits.all (Number.isDigit 10) then none
  else
    let n := Number.digitsValue 10 digits
    if 0 < n ∧ n < Number.twoTo 64 then some n else none

/-- The default settings changed by environment variables; values that make no sense are
ignored. -/
def ofEnvironment (environment : Environment) : Config :=
  let config : Config := {}
  let extra := match environment.get? loadPathVariable with
    | some paths => (paths.splitOn ":").filter (· ≠ "")
    | none => []
  { config with
    loadPath := extra ++ config.loadPath
    maxDepth := ((environment.get? maxDepthVariable).bind positive?).getD config.maxDepth }

/-- Search a directory before all others. -/
def prependLoadPath (c : Config) (dir : String) : Config := { c with loadPath := dir :: c.loadPath }

end Config

namespace Files

/-- The names under which a feature may be stored. -/
def featureNames (name : String) : List String :=
  let bare := !name.endsWith ".el"
  (if bare then [name ++ ".el"] else []) ++ [name] ++
    (if bare && name.contains '-' then [name.replace "-" "/" ++ ".el"] else [])

/-- The file that provides a feature: the first of its names in the first directory that
has one. -/
def feature? (f : Files) (name : String) (loadPath : List String) : Option String :=
  let names := featureNames name
  let candidates :=
    if FileName.isAbsolute name then names
    else loadPath.flatMap fun dir => names.map (FileName.join dir)
  candidates.find? f.isFile

end Files

end EditorLisp
