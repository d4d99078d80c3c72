import SchemaGo.Comment.Directive
import SchemaGo.Comment.SourcePath
import SchemaGo.Table

/-!
# Comments of a schema

The leading comments of one schema file, by the text of their source path.
-/

namespace SchemaGo

structure SourceLocation where
  path : SourcePath
  leading : Option String
  trailing : Option String
deriving DecidableEq, Repr

structure Comments where
  entries : Table String
deriving DecidableEq, Repr

namespace Comments

def empty : Comments := ⟨[]⟩

def insert (comments : Comments) (path comment : String) : Comments :=
  ⟨Table.insert path comment comments.entries⟩

def get? (comments : Comments) (path : String) : Option String :=
  Table.get? comments.entries path

def size (comments : Comments) : Nat := comments.entries.length

/-- Only leading comments count, and the file itself has no path.  The last location of a path
wins. -/
def ofLocations (locations : List SourceLocation) : Comments :=
  locations.foldl
    (fun comments location =>
      match location.leading with
      | none => comments
      | some comment =>
        if location.path.isEmpty then comments
        else comments.insert location.path.render comment)
    empty

def directiveValues (comments : Comments) (path name : String) : List String :=
  match comments.get? path with
  | none => []
  | some comment => ((Directive.parse comment).filter fun d => d.name == name).map (·.value)

end Comments

end SchemaGo
