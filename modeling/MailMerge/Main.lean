import MailMerge.Command

/-!
# The program

Looks up the files that a command line names, runs it on them, prints what it says and writes what
it has changed.
-/

namespace MailMerge.Main

open Files (Path Tree)

/-- Whether there is something at a path that is no file to be read. -/
def isFolder (path : String) : IO Bool := do
  try
    let _ ← IO.FS.realPath path
    return true
  catch _ => return false

/-- Looks up one path and puts what is there into the files. -/
def lookUp (files : Tree) (path : Path) : IO Tree := do
  let found : Except Files.Fault Tree ←
    try
      let bytes ← IO.FS.readBinFile path.string
      pure ((files.makeFolders path.parent).map fun files => (files.write path bytes.toList).1)
    catch _ => do
      if ← isFolder path.string then pure (files.makeFolders path) else pure (.ok files)
  match found with
  | .ok files => return files
  | .error _ => return files

/-- The files that matter to a command line. -/
def filesFor (line : List String) : IO Tree := do
  let here := Path.ofString (toString (← IO.currentDir))
  let files := (Tree.empty.makeFolders here).toOption.getD .empty
  let paths := match Command.ofLine? line with
    | some (command, _) => command.paths
    | none => []
  paths.foldlM lookUp { files with here := (files.locate here).toOption.getD [] }

/-- The text of the path to a place. -/
def pathTo (place : Files.Place) : String :=
  "/" ++ "/".intercalate (place.map fun name => String.ofList ((Text.utf8? name).getD []))

def write : Files.Place × Files.Item → IO Unit
  | (place, .folder) => IO.FS.createDirAll (pathTo place)
  | (place, .file bytes) => IO.FS.writeBinFile (pathTo place) ⟨bytes.toArray⟩

end MailMerge.Main

open MailMerge in
/-- The exit code is that of the command. -/
def main (line : List String) : IO UInt32 := do
  let files ← Main.filesFor line
  let outcome := Command.runLine .usual line files
  outcome.output.forM IO.println
  outcome.problems.forM IO.eprintln
  match outcome.unreported with
  | some e => IO.eprintln e.message
  | none => pure ()
  (outcome.files.changes files).forM Main.write
  return outcome.exitCode.toUInt32
