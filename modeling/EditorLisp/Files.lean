import EditorLisp.Table

/-!
# Files

File names as text, and a small file tree.  Names are manipulated lexically.  The tree
holds text files under a working directory; a name is looked up by walking its components,
so a name that passes through a missing directory leads nowhere even if it comes back.
-/

namespace EditorLisp

/-! ## File names -/

namespace FileName

def isAbsolute (name : String) : Bool := name.front = '/' && !name.isEmpty

/-- Put a name behind a directory; an absolute name stands for itself. -/
def join (dir name : String) : String :=
  if isAbsolute name || dir.isEmpty then name
  else if dir.back = '/' then dir ++ name
  else dir ++ "/" ++ name

/-- The parts of a name between slashes, without empty ones and dots. -/
def components (name : String) : List String :=
  (name.splitOn "/").filter fun part => part ≠ "" ∧ part ≠ "."

/-- Resolve double dots from left to right, the parts so far being given in reverse; at
the start they have no effect. -/
def resolveDots : List String → List String → List String
  | parts, [] => parts.reverse
  | parts, part :: rest =>
    if part = ".." then resolveDots parts.tail rest else resolveDots (part :: parts) rest

/-- The shortest name that means the same without looking at any file. -/
def normalize (name : String) : String :=
  let body := "/".intercalate (resolveDots [] (components name))
  if isAbsolute name then "/" ++ body else body

def expandTilde (home name : String) : String :=
  match name.toList with
  | '~' :: rest =>
    if rest.isEmpty || rest.head? == some '/' then
      join home (String.ofList (rest.dropWhile (· = '/')))
    else name
  | _ => name

/-- The part of a name up to its last slash, if it has one. -/
def directory? (name : String) : Option String :=
  let rest := name.toList.reverse.dropWhile (· ≠ '/')
  if rest.isEmpty then none else some (String.ofList rest.reverse)

/-- The part of a name after its last slash. -/
def base (name : String) : String :=
  String.ofList (name.toList.reverse.takeWhile (· ≠ '/')).reverse

end FileName

/-! ## The file tree -/

/-- Text files below a working directory. -/
structure Files where
  /-- The texts, by normalised name relative to the working directory. -/
  texts : Table String String := {}
deriving Repr, Inhabited

namespace Files

/-- A file tree from names relative to the working directory and their texts; of two texts
under one name the later one stays. -/
def ofTexts (texts : List (String × String)) : Files :=
  ⟨.ofList (texts.map fun (name, text) => (FileName.normalize name, text))⟩

/-- Write all files of another tree, over those of the same names. -/
def overlay (f other : Files) : Files :=
  ⟨other.texts.entries.foldl (fun texts (name, text) => texts.insert name text) f.texts⟩

/-- What a name leads to. -/
inductive Entry where
  | file (name text : String)
  | directory
deriving Repr, DecidableEq

def workingDirectory : String := "/work"

/-- Whether the components name a directory below the working directory: the working
directory itself, or one that holds a file. -/
def isDirectory (f : Files) (parts : List String) : Bool :=
  parts.isEmpty || f.texts.keys.any fun name =>
    let file := FileName.components name
    parts.length < file.length && file.take parts.length == parts

def entry? (f : Files) (parts : List String) : Option Entry :=
  let name := "/".intercalate parts
  match f.texts.get? name with
  | some text => some (.file name text)
  | none => if f.isDirectory parts then some .directory else none

/-- Follow components from a directory below the working directory, given in reverse.  A
double dot leads out of a directory that must be there. -/
def follow (f : Files) : List String → List String → Option (List String)
  | here, [] => some here.reverse
  | here, part :: rest =>
    if !f.isDirectory here.reverse then none
    else if part = ".." then
      match here with
      | [] => none
      | _ :: up => follow f up rest
    else follow f (part :: here) rest

/-- What the components of a name lead to.  Absolute names other than the root and those
below the working directory lead nowhere. -/
def locate? (f : Files) (name : String) : Option Entry :=
  if name.isEmpty then none
  else if FileName.isAbsolute name then
    match FileName.components name with
    | [] => some .directory
    | "work" :: rest => (f.follow [] rest).bind f.entry?
    | _ => none
  else (f.follow [] (FileName.components name)).bind f.entry?

/-- What a name leads to; one that ends in a slash, or in a slash and a dot, names a
directory only. -/
def find? (f : Files) (name : String) : Option Entry :=
  match f.locate? name with
  | some .directory => some .directory
  | some entry => if name.endsWith "/" || name.endsWith "/." then none else some entry
  | none => none

def read? (f : Files) (name : String) : Option String :=
  match f.find? name with
  | some (.file _ text) => some text
  | _ => none

def isFile (f : Files) (name : String) : Bool := (f.read? name).isSome

/-- Write a file, behind what it holds if `append` is set.  Refused when the directory is
not there or the name is that of a directory. -/
def write? (f : Files) (name text : String) (append : Bool) : Option Files :=
  let relative :=
    match FileName.isAbsolute name, FileName.components name with
    | true, "work" :: rest => some rest
    | true, _ => none
    | false, parts => some parts
  relative.bind fun parts => (f.follow [] parts).bind fun parts =>
    if name.isEmpty || name.back = '/' || f.isDirectory parts || !f.isDirectory parts.dropLast then none
    else
      let key := "/".intercalate parts
      let old := if append then (f.texts.get? key).getD "" else ""
      some { f with texts := f.texts.insert key (old ++ text) }

end Files

end EditorLisp
