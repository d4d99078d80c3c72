import SchemaGo.Comment.Store
import SchemaGo.FileTree
import SchemaGo.Go.Name
import SchemaGo.Option.Literal
import SchemaGo.Option.Value

/-!
# Unwrapping option values

A linked option value becomes the value templates see: messages turn into maps keyed by capitalised
field names, and a scalar whose source location carries an `@embed` directive is replaced by the
bytes of the file it names.  The location of a scalar is the path of its option, extended by the
field number of every message and the index of every list on the way down.
-/

namespace SchemaGo

structure EmbedFault where
  path : String
  cause : FileFault
deriving DecidableEq, Repr

def EmbedFault.message (fault : EmbedFault) : String :=
  s!"failed to embed {fault.path}: {fault.cause.message}"

structure EmbedScope where
  comments : Comments
  directory : String
  files : FileTree
deriving DecidableEq, Repr

structure Cursor where
  path : SourcePath
  embedded : List String
deriving DecidableEq, Repr

namespace Cursor

def push (cursor : Cursor) (step : Int) : Cursor :=
  { cursor with path := cursor.path ++ [step] }

def pop (cursor : Cursor) : Cursor := { cursor with path := cursor.path.dropLast }

end Cursor

def pathStep (number : Nat) : Int := Int.bmod number (Nat.pow 2 32)

namespace EmbedScope

def target? (scope : EmbedScope) (path : SourcePath) : Option String :=
  ((scope.comments.directiveValues path.render Directive.embed).head?).map
    (PathText.join scope.directory)

def unwrapScalar (scope : EmbedScope) (scalar : Scalar) (cursor : Cursor) :
    Except EmbedFault OptionValue × Cursor :=
  match scope.target? cursor.path with
  | none => (.ok (.scalar scalar), cursor)
  | some file =>
    match scope.files.read file with
    | .error cause => (.error ⟨file, cause⟩, cursor)
    | .ok bytes =>
      (.ok (.scalar (.literal (byteLiteral bytes))),
        { cursor with embedded := cursor.embedded ++ [file] })

mutual

/-- Unwraps a value at the cursor.  The cursor is back at its path afterwards, also on failure. -/
def unwrap (scope : EmbedScope) : RawValue → Cursor → Except EmbedFault OptionValue × Cursor
  | .scalar scalar, cursor => scope.unwrapScalar scalar cursor
  | .list items, cursor =>
    match unwrapItems scope 0 items cursor with
    | (.ok items, cursor) => (.ok (.list items), cursor)
    | (.error fault, cursor) => (.error fault, cursor)
  | .message fields, cursor =>
    match unwrapFields scope [] fields cursor with
    | (.ok entries, cursor) => (.ok (.map entries), cursor)
    | (.error fault, cursor) => (.error fault, cursor)
  | .map entries, cursor =>
    match unwrapEntries scope [] entries cursor with
    | (.ok entries, cursor) => (.ok (.map entries), cursor)
    | (.error fault, cursor) => (.error fault, cursor)
termination_by structural value => value

def unwrapItems (scope : EmbedScope) (index : Nat) :
    List RawValue → Cursor → Except EmbedFault (List OptionValue) × Cursor
  | [], cursor => (.ok [], cursor)
  | item :: rest, cursor =>
    match unwrap scope item (cursor.push (pathStep index)) with
    | (.error fault, cursor) => (.error fault, cursor.pop)
    | (.ok value, cursor) =>
      match unwrapItems scope (index + 1) rest cursor.pop with
      | (.ok values, cursor) => (.ok (value :: values), cursor)
      | (.error fault, cursor) => (.error fault, cursor)
termination_by structural items => items

def unwrapFields (scope : EmbedScope) (done : OptionMap) :
    List (Nat × String × RawValue) → Cursor → Except EmbedFault OptionMap × Cursor
  | [], cursor => (.ok done, cursor)
  | (number, name, field) :: rest, cursor =>
    match unwrap scope field (cursor.push (pathStep number)) with
    | (.error fault, cursor) => (.error fault, cursor.pop)
    | (.ok value, cursor) =>
      unwrapFields scope (Table.insert (Go.capitalize name) value done) rest cursor.pop
termination_by structural fields => fields

def unwrapEntries (scope : EmbedScope) (done : OptionMap) :
    List (String × RawValue) → Cursor → Except EmbedFault OptionMap × Cursor
  | [], cursor => (.ok done, cursor)
  | (key, entry) :: rest, cursor =>
    match unwrap scope entry cursor with
    | (.error fault, cursor) => (.error fault, cursor)
    | (.ok value, cursor) => unwrapEntries scope (Table.insert key value done) rest cursor
termination_by structural entries => entries

end

end EmbedScope

end SchemaGo
