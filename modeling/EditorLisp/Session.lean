import EditorLisp.Condition
import EditorLisp.Config
import EditorLisp.Document.Workspace
import EditorLisp.Flow
import EditorLisp.Grid
import EditorLisp.Host
import EditorLisp.MatchData
import EditorLisp.Store.Basic
import EditorLisp.Timer

/-!
# Sessions

The whole state of the runtime: the store, the value and function of every name, the
workspace, and what the program has printed.  The clock is part of the state and moves by
one nanosecond whenever it is read, so that two events never fall together.
-/

namespace EditorLisp

/-- The state of the runtime. -/
structure Session where
  store : Store := {}
  /-- Global values of variables. -/
  globals : Table String Value := {}
  /-- Functions of names. -/
  functions : Table String Value := {}
  /-- Variables that are bound dynamically. -/
  specials : Table String Unit := {}
  /-- Variables that become local to a buffer when they are set. -/
  autoLocal : Table String Unit := {}
  /-- Properties of names, in the order in which they were put. -/
  plists : Table String (List (Value × Value)) := {}
  /-- The features present. -/
  features : List String := []
  /-- The features being loaded. -/
  loading : List String := []
  workspace : Workspace := .initial
  /-- What the last search matched. -/
  matchData : Option MatchData := none
  conditions : Conditions := .initial
  timers : Timers := {}
  /-- Nanoseconds since the session started. -/
  clock : Nat := 0
  /-- How many random numbers have been drawn. -/
  draws : Nat := 0
  /-- The keymap that is asked last. -/
  globalMap : Value := .nil
  /-- The messages shown, oldest first. -/
  messages : Array String := #[]
  /-- The text printed and not yet taken. -/
  output : String := ""
  config : Config := {}
  files : Files := {}
  environment : Environment := {}
  host : Host := {}
  grid : Grid := {}
  /-- The number of symbols made so far. -/
  symbolCount : Nat := 0
  /-- The number of temporary buffers made so far. -/
  tempCount : Nat := 0
  /-- How deep evaluation is nested. -/
  depth : Nat := 0
deriving Inhabited

namespace Session

/-- Features that are present from the start. -/
def standardFeatures : List String :=
  ["cl-lib", "cl-macs", "seq", "subr-x", "gamegrid", "outline", "easymenu", "wid-edit",
   "icons", "ps-print", "ps-print-loaddefs"]

/-- Variables that are there from the start, apart from the load path. -/
def standardVariables (config : Config) (modeName version : Value) : List (String × Value) :=
  [("case-fold-search", .nil),
   ("this-command", .nil),
   ("last-command", .nil),
   ("last-command-event", .nil),
   ("current-prefix-arg", .nil),
   ("unread-command-events", .nil),
   ("inhibit-read-only", .nil),
   ("buffer-read-only", .nil),
   ("truncate-lines", .nil),
   ("indent-tabs-mode", .nil),
   ("cursor-type", .t),
   ("fill-column", .int 70),
   ("tab-width", .int 8),
   ("major-mode", .symbol "fundamental-mode"),
   ("mode-name", modeName),
   ("mode-line-format", .nil),
   ("noninteractive", .nil),
   ("window-system", .nil),
   ("emacs-major-version", .int 29),
   ("emacs-minor-version", .int 1),
   ("emacs-version", version),
   ("system-type", .symbol "gnu/linux"),
   ("most-positive-fixnum", .int Int64.maxValue),
   ("most-negative-fixnum", .int Int64.minValue),
   ("max-lisp-eval-depth", .ofNat config.maxDepth),
   ("gamegrid-user-score-file-directory", .nil)]

def makeTexts (s : Store) : List String → List Value × Store
  | [] => ([], s)
  | text :: rest =>
    let (v, s) := s.text text
    let (vs, s) := makeTexts s rest
    (v :: vs, s)

def onStore (store : Store) (config : Config) (files : Files) (environment : Environment)
    (host : Host := {}) : Session :=
  let (dirs, store) := makeTexts store config.loadPath
  let (loadPath, store) := store.list dirs
  let (modeName, store) := store.text "Fundamental"
  let (version, store) := store.text "29.1"
  let (globalMap, store) := store.addKeymap .full
  let standard := ("load-path", loadPath) :: standardVariables config modeName version
  { store, config, files, environment, host, globalMap
    features := standardFeatures
    globals := Table.ofList standard
    specials := Table.ofList (standard.map fun e => (e.1, ())) }

def new (config : Config) (files : Files) (environment : Environment) (host : Host := {}) :
    Session :=
  onStore {} config files environment host

/-- Print a value, naming live buffers. -/
def print (s : Session) (v : Value) : String :=
  s.store.printWith { bufferName := s.workspace.bufferName? } v

/-- Print a value for people, naming live buffers. -/
def display (s : Session) (v : Value) : String :=
  s.store.printWith { quoted := false, bufferName := s.workspace.bufferName? } v

end Session

end EditorLisp
