import SchemaGo.PathText
import SchemaGo.Text.Utf8

/-!
# File trees

A file system as a value: a working directory and what stands at each absolute location.  A path is
walked segment by segment, every location on the way has to be a directory, and `..` leads to the
parent of the location reached so far.
-/

namespace SchemaGo

inductive FileFault where
  | notFound
  | exists
  | notDirectory
  | isDirectory
  | notText
deriving DecidableEq, Repr

def FileFault.message : FileFault → String
  | .notFound => "No such file or directory (os error 2)"
  | .exists => "File exists (os error 17)"
  | .notDirectory => "Not a directory (os error 20)"
  | .isDirectory => "Is a directory (os error 21)"
  | .notText => "stream did not contain valid UTF-8"

inductive Entry where
  | file (contents : Bytes)
  | directory
deriving DecidableEq, Repr

abbrev Place := List String

/-- The root and the working directory exist even when `entries` does not list them. -/
structure FileTree where
  workingDirectory : Place
  entries : List (Place × Entry)
deriving DecidableEq, Repr

namespace FileTree

def empty (workingDirectory : Place) : FileTree := ⟨workingDirectory, []⟩

def entry? (tree : FileTree) (place : Place) : Option Entry :=
  if place.isPrefixOf tree.workingDirectory then some .directory
  else tree.entries.lookup place

def setEntry (tree : FileTree) (place : Place) (entry : Entry) : FileTree :=
  { tree with entries := (place, entry) :: tree.entries.filter fun (p, _) => p != place }

/-! ## Walking -/

def descend (tree : FileTree) (place : Place) (segment : String) : Except FileFault Place :=
  match tree.entry? place with
  | none => .error .notFound
  | some (.file _) => .error .notDirectory
  | some .directory =>
    if PathText.isIdle segment then .ok place
    else if segment == ".." then .ok place.dropLast
    else .ok (place ++ [segment])

def walk (tree : FileTree) : Place → List String → Except FileFault Place
  | place, [] => .ok place
  | place, segment :: rest =>
    match tree.descend place segment with
    | .error fault => .error fault
    | .ok next => walk tree next rest

/-- The place a path leads to; only what comes before the last segment has to exist. -/
def resolve (tree : FileTree) (path : String) : Except FileFault Place :=
  if path.isEmpty then .error .notFound
  else
    tree.walk (if PathText.isAbsolute path then [] else tree.workingDirectory)
      (Text.splitOn '/' path)

/-! ## Reading -/

def read (tree : FileTree) (path : String) : Except FileFault Bytes :=
  match tree.resolve path with
  | .error fault => .error fault
  | .ok place =>
    match tree.entry? place with
    | none => .error .notFound
    | some .directory => .error .isDirectory
    | some (.file contents) => .ok contents

def readText (tree : FileTree) (path : String) : Except FileFault String :=
  match tree.read path with
  | .error fault => .error fault
  | .ok bytes =>
    match Text.Utf8.decode bytes with
    | .ok text => .ok text
    | .error _ => .error .notText

def isDirectory (tree : FileTree) (path : String) : Bool :=
  match tree.resolve path with
  | .ok place => tree.entry? place == some .directory
  | .error _ => false

/-! ## Writing

An operation that fails half way keeps what it did before, so the tree is returned either way. -/

def dropSlashes (path : String) : String :=
  String.ofList (path.toList.reverse.dropWhile (· == '/')).reverse

/-- Creates or replaces a file in an existing directory.  A text that ends in a slash names no file
that could be created. -/
def write (tree : FileTree) (path : String) (contents : Bytes) :
    Except FileFault Unit × FileTree :=
  match tree.resolve path with
  | .error .notFound =>
    match tree.resolve (dropSlashes path) with
    | .ok _ => (.error (if dropSlashes path == path then .notFound else .isDirectory), tree)
    | .error fault => (.error fault, tree)
  | .error fault => (.error fault, tree)
  | .ok place =>
    match tree.entry? place with
    | some .directory => (.error .isDirectory, tree)
    | _ => (.ok (), tree.setEntry place (.file contents))

def makeDirectory (tree : FileTree) (path : String) : Except FileFault FileTree :=
  let text := dropSlashes path
  match tree.resolve (if text.isEmpty then path else text) with
  | .error fault => .error fault
  | .ok place =>
    match tree.entry? place with
    | some _ => .error .exists
    | none => .ok (tree.setEntry place .directory)

def ensureDirectory (tree : FileTree) (path : String) : Except FileFault Unit × FileTree :=
  match tree.makeDirectory path with
  | .ok tree => (.ok (), tree)
  | .error fault => (if tree.isDirectory path then .ok () else .error fault, tree)

def makeDirectoriesFrom : Nat → FileTree → String → Except FileFault Unit × FileTree
  | 0, tree, path => tree.ensureDirectory path
  | fuel + 1, tree, path =>
    if path.isEmpty then (.ok (), tree)
    else match tree.makeDirectory path with
      | .error .notFound =>
        match PathText.parent? path with
        | none => (.error .notFound, tree)
        | some above =>
          match makeDirectoriesFrom fuel tree above with
          | (.error fault, tree) => (.error fault, tree)
          | (.ok (), tree) => tree.ensureDirectory path
      | _ => tree.ensureDirectory path

def makeDirectories (tree : FileTree) (path : String) : Except FileFault Unit × FileTree :=
  if path.isEmpty then (.ok (), tree) else makeDirectoriesFrom path.length tree path

def put (tree : FileTree) (path : String) (contents : Bytes) : Except FileFault Unit × FileTree :=
  match PathText.parent? path with
  | none => tree.write path contents
  | some above =>
    match tree.makeDirectories above with
    | (.error fault, tree) => (.error fault, tree)
    | (.ok (), tree) => tree.write path contents

def remove (tree : FileTree) (path : String) : FileTree :=
  match tree.resolve path with
  | .error _ => tree
  | .ok place => { tree with entries := tree.entries.filter fun (p, _) => !place.isPrefixOf p }

/-! ## Listing -/

def filesBelow (tree : FileTree) (path : String) : List (String × Bytes) :=
  match tree.resolve path with
  | .error _ => []
  | .ok place =>
    tree.entries.filterMap fun (p, entry) =>
      match entry with
      | .directory => none
      | .file contents =>
        let below := p.drop place.length
        if place.isPrefixOf p && !below.isEmpty then some (Text.joinWith "/" below, contents)
        else none

end FileTree

end SchemaGo
