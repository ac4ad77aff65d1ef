import EditorLisp.Primitives.Editing
import EditorLisp.Primitives.Time

/-!
# Files from within programs

Primitives on file names, and the few that ask the file tree or change it.
-/

namespace EditorLisp

def Session.defaultDirectory (s : Session) : String :=
  match s.globals.get? "default-directory" with
  | some (.str _ dir) => dir
  | _ => Files.workingDirectory

def Session.expandFileName (s : Session) (name : String) (dir : Option String) : String :=
  let path := FileName.expandTilde s.environment.home name
  if FileName.isAbsolute path then FileName.normalize path
  else
    let base := match dir with
      | some dir => FileName.expandTilde s.environment.home dir
      | none => s.defaultDirectory
    FileName.normalize (FileName.join base path)

namespace Primitives

open Eval

/-- The text of a missing file in signals. -/
def noSuchFile : String := "No such file or directory"

/-- Complain about a file that is not there. -/
def fileMissing {α : Type} (operation file : String) : Eval α := do
  let operation ← text operation
  let reason ← text noSuchFile
  let file ← text file
  signal "file-missing" [operation, reason, file]

/-! ## File names -/

/-- `(expand-file-name NAME &optional DIRECTORY)`. -/
def expandFileName : Primitive := fun _ args => do
  between "expand-file-name" args 1 2
  let name ← string (arg args 0)
  let dir ← string? (given? args 1)
  text ((← session).expandFileName name dir)

def onFileName (name : String) (f : String → Eval Value) : Primitive :=
  unary name fun v => do f (← string v)

def locateUserEmacsFile : Primitive := fun _ args => do
  between "locate-user-emacs-file" args 1 2
  let name ← string (arg args 0)
  let home ← get (·.environment.home)
  text (FileName.join (FileName.join home ".emacs.d") name)

/-! ## The file tree -/

def expandedArg (v : Value) : Eval String := do
  let name ← string v
  return (← session).expandFileName name none

def fileEntry? (v : Value) : Eval (Option Files.Entry) := do
  let path ← expandedArg v
  return (← session).files.find? path

/-- `(file-attributes NAME)`: type, links, owners, three times and the size. -/
def fileAttributes : Primitive := fun _ args => do
  between "file-attributes" args 1 2
  match ← fileEntry? (arg args 0) with
  | none => return .nil
  | some entry =>
    let (isDirectory, size) := match entry with
      | .directory => (true, 4096)
      | .file _ content => (false, content.utf8ByteSize)
    let seconds := (← presentTime) / second
    let accessed ← list (splitSeconds (seconds : Nat))
    let modified ← list (splitSeconds (seconds : Nat))
    list [.ofBool isDirectory, .int 1, .int 0, .int 0, accessed, modified, modified, .ofNat size]

def fileAttributeModificationTime : Primitive :=
  unary "file-attribute-modification-time" fun v => do return (← properList v).getD 5 .nil

def executableFind : Primitive := fun _ args => do
  between "executable-find" args 1 2
  let program ← string (arg args 0)
  let dirs ← get (·.environment.searchPath)
  let files ← get (·.files)
  match (dirs.map (FileName.join · program)).find? files.isFile with
  | some found => text found
  | none => return .nil

/-- `(insert-file-contents NAME)`: the point stays before the text. -/
def insertFileContents : Primitive := fun _ args => do
  between "insert-file-contents" args 1 5
  let path ← expandedArg (arg args 0)
  match (← session).files.read? path with
  | none => fileMissing "Opening input file" path
  | some content =>
    modifyCurrent fun b => (b.insertAt b.point content).goto b.point
    list [← text path, .ofNat content.length]

/-- The text that a region stands for: a string itself, the whole buffer for `nil`. -/
def regionText (start stop : Value) : Eval String := do
  match start with
  | .str _ s => return s
  | .nil => return (← currentBuffer).content
  | _ =>
    let x ← integer start
    let y ← integer stop
    let b ← currentBuffer
    let first ← below x
    let last ← below y
    return b.substring first.toInt.toNat last.toInt.toNat

/-- `(write-region START END FILE &optional APPEND)`. -/
def writeRegion : Primitive := fun _ args => do
  between "write-region" args 3 7
  let out ← regionText (arg args 0) (arg args 1)
  let path ← expandedArg (arg args 2)
  match (← session).files.write? path out (flag args 3) with
  | some files =>
    modify fun s => { s with files }
    return .nil
  | none =>
    let operation ← text "Opening output file"
    let reason ← text noSuchFile
    signal "file-error" [operation, reason, ← text path]

def files : List (String × Primitive) :=
  [("expand-file-name", expandFileName),
   ("substitute-in-file-name", onFileName "substitute-in-file-name" fun name => do
      text ((← session).environment.substitute name)),
   ("file-name-directory", onFileName "file-name-directory" fun name =>
      match FileName.directory? name with
      | some dir => text dir
      | none => pure .nil),
   ("file-name-nondirectory", onFileName "file-name-nondirectory" fun name =>
      text (FileName.base name)),
   ("file-name-as-directory", onFileName "file-name-as-directory" fun name =>
      text (if name.endsWith "/" then name else name ++ "/")),
   ("locate-user-emacs-file", locateUserEmacsFile),
   ("file-exists-p", unary "file-exists-p" fun v => do bool (← fileEntry? v).isSome),
   ("file-readable-p", unary "file-readable-p" fun v => do bool (← fileEntry? v).isSome),
   ("file-directory-p", unary "file-directory-p" fun v => do
      bool ((← fileEntry? v) == some .directory)),
   ("file-attributes", fileAttributes),
   ("file-attribute-modification-time", fileAttributeModificationTime),
   ("executable-find", executableFind), ("insert-file-contents", insertFileContents),
   ("write-region", writeRegion)]

end Primitives

end EditorLisp
