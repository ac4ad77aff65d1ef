import EditorLisp.CommandLine

/-!
# The program

Reads the files of the working directory, runs the command line, prints what it answers
and writes back the files that changed.
-/

namespace EditorLisp

/-- The environment variables that matter. -/
def environmentNames : List String :=
  ["HOME", "PATH", Config.loadPathVariable, Config.maxDepthVariable]

def readEnvironment : IO Environment := do
  let values ← environmentNames.mapM fun name => do return (name, ← IO.getEnv name)
  return ⟨values.filterMap fun (name, value) => value.map (name, ·)⟩

/-- The text of a file, unless it cannot be read as text. -/
def readText? (path : String) : IO (Option String) := do
  try return some (← IO.FS.readFile path)
  catch _ => return none

/-- The names of the entries of a directory; none if it is not one. -/
def entryNames (path : String) : IO (List String) := do
  try
    let entries ← (System.mkFilePath [path]).readDir
    return entries.toList.map fun entry => entry.fileName
  catch _ => return []

/-- Collect the text files below a directory, a bounded number of levels deep. -/
def collectFiles : Nat → String → Files → IO Files
  | 0, _, files => return files
  | depth + 1, path, files => do
    let names ← entryNames (if path.isEmpty then "." else path)
    names.foldlM (fun files name => do
      let inner := FileName.join path name
      match ← readText? inner with
      | some content => return { files with texts := files.texts.insert inner content }
      | none => collectFiles depth inner files) files

def writeFiles (before after : Files) : IO Unit :=
  after.texts.entries.forM fun (name, content) => do
    unless before.texts.get? name == some content do IO.FS.writeFile name content

end EditorLisp

open EditorLisp in
def main (args : List String) : IO UInt32 := do
  let environment ← readEnvironment
  let files ← collectFiles 8 "" {}
  match CommandLine.run args files environment {} with
  | .error fault =>
    IO.eprintln fault.message
    IO.eprintln "usage: elcompat [-L DIR]... [-l FILE | -e EXPR | FILE]... [--run-timers SECONDS]"
    return 2
  | .ok result =>
    IO.print result.output
    writeFiles files result.files
    return result.status.toUInt32
