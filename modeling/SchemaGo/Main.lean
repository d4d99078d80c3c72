import SchemaGo.Cli

/-!
# The program

Reads the directories that a call works in, runs the call on them as a value, and writes what has
changed.
-/

namespace SchemaGo.Program

def placeOf (path : String) : Place := (Text.splitOn '/' path).filter fun name => !name.isEmpty

partial def readBelow (path : String) : IO (List (Place × Entry)) := do
  let location ← IO.FS.realPath path
  if ← location.isDir then
    let inside ← (← location.readDir).toList.mapM fun entry => readBelow entry.path.toString
    return (placeOf path, .directory) :: inside.flatten
  else
    let contents ← IO.FS.readBinFile path
    return [(placeOf path, .file contents.toList)]

def above (place : Place) : List (Place × Entry) :=
  (List.range place.length).map fun n => (place.take n, .directory)

def addPath (files : FileTree) (path : String) : IO FileTree := do
  try
    let location := (← IO.FS.realPath path).toString
    let found ← readBelow location
    return { files with entries := found ++ above (placeOf location) ++ files.entries }
  catch _ => return files

def readFiles (home : Option String) (arguments : List String) : IO FileTree := do
  let files := FileTree.empty (placeOf (← IO.currentDir).toString)
  match Arguments.read home arguments with
  | .compile arguments =>
    let files ← match arguments.config with
      | some path => addPath files path
      | none => pure files
    match Cli.configOf arguments files with
    | .error _ => return files
    | .ok config =>
      let directories := Cli.directories arguments config ++ arguments.schemaSetOut.toList.map
        fun path => (PathText.parent? path).getD "."
      directories.foldlM addPath files
  | _ => return files

/-- Writes the entries that were not there before; directories come before what is in them. -/
def writeChanges (before after : FileTree) : IO Unit := do
  let changed := after.entries.filter fun (place, entry) => before.entry? place != some entry
  for (place, entry) in changed.reverse do
    let path := "/" ++ Text.joinWith "/" place
    match entry with
    | .directory => IO.FS.createDirAll path
    | .file contents => IO.FS.writeBinFile path ⟨contents.toArray⟩

end SchemaGo.Program

def main (arguments : List String) : IO UInt32 := do
  let home ← IO.getEnv "PROTOV_HOME"
  let files ← SchemaGo.Program.readFiles home arguments
  let result := SchemaGo.Cli.call home arguments files
  SchemaGo.Program.writeChanges files result.files
  if !result.report.isEmpty then IO.eprintln result.report
  return result.code.toUInt32
