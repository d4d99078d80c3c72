import SchemaGo.FileTree

/-!
# Looking up schema sources

An import is looked for in the directory of the file being compiled first, and then below the
include directory.
-/

namespace SchemaGo

inductive SourceFault where
  | file (fault : FileFault)
  | encoding (fault : Text.Utf8.Fault)
deriving DecidableEq, Repr

def SourceFault.message : SourceFault → String
  | .file fault => fault.message
  | .encoding fault => fault.message

structure LookupFault where
  importName : String
  localPath : String
  fallback : String
  cause : SourceFault
deriving DecidableEq, Repr

def LookupFault.message (fault : LookupFault) : String :=
  s!"failed to read {fault.importName} from {fault.localPath} or {fault.fallback}: " ++
    fault.cause.message

/-- `directory` is empty or ends in a slash. -/
structure Lookup where
  directory : String
  includeDirectory : String
deriving DecidableEq, Repr

namespace Lookup

def forwardSlashes (path : String) : String := Text.replaceChar '\\' '/' path

def withSlash (path : String) : String :=
  if path.isEmpty || path.toList.getLast? == some '/' then path else path ++ "/"

def ofDirectory (directory includeDirectory : String) : Lookup :=
  ⟨withSlash (forwardSlashes directory), includeDirectory⟩

def dropStart? : List Char → List Char → Option (List Char)
  | [], rest => some rest
  | _ :: _, [] => none
  | c :: start, d :: rest => if c = d then dropStart? start rest else none

def nameOf (lookup : Lookup) (path : String) : String :=
  let text := (forwardSlashes path).toList
  let text := (dropStart? lookup.directory.toList text).getD text
  String.ofList (text.dropWhile (· == '/'))

def ofFile (file includeDirectory : String) : Lookup × String :=
  let lookup := ofDirectory ((PathText.parent? file).getD "") includeDirectory
  (lookup, lookup.nameOf file)

def read (lookup : Lookup) (files : FileTree) (importName : String) : Except LookupFault Bytes :=
  let name := lookup.nameOf importName
  let localPath := PathText.join lookup.directory name
  match files.read localPath with
  | .ok bytes => .ok bytes
  | .error _ =>
    let fallback := PathText.join lookup.includeDirectory name
    match files.read fallback with
    | .ok bytes => .ok bytes
    | .error cause => .error ⟨importName, localPath, fallback, .file cause⟩

/-- The text of a source.  A source that is no text is reported under the name it was asked for
by. -/
def readSource (lookup : Lookup) (files : FileTree) (importName : String) :
    Except LookupFault String :=
  match lookup.read files importName with
  | .error fault => .error fault
  | .ok bytes =>
    match Text.Utf8.decode bytes with
    | .ok text => .ok text
    | .error fault =>
      .error ⟨importName, PathText.join lookup.directory importName,
        PathText.join lookup.includeDirectory importName, .encoding fault⟩

end Lookup

end SchemaGo
