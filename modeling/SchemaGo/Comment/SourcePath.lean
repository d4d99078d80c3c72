import SchemaGo.Schema.Metamodel

/-!
# Source paths

A source location is a list of field numbers and indices that leads from a schema file to one of its
elements, such as `6, 2, 2, 0` for the first method of the third service.  The text of a path names
the fields as far as they are known and keeps every number behind an unknown one.
-/

namespace SchemaGo

abbrev SourcePath := List Int

namespace SourcePath

def numberChars (n : Int) : List Char := (toString n).toList

def fieldTarget (field : MetaField) : Option MetaType :=
  match field.type with
  | .message type => some type
  | _ => none

/-- The text of a path that continues inside `current`, or behind a number that is not known. -/
def renderFrom (current : Option MetaType) : SourcePath → List Char
  | [] => []
  | number :: rest =>
    match current.bind fun type => type.field? number with
    | none => '.' :: numberChars number ++ renderFrom none rest
    | some field =>
      match rest with
      | [] => '.' :: field.name.toList
      | index :: below =>
        if field.repeated then
          '.' :: field.name.toList ++ '[' :: numberChars index ++
            ']' :: renderFrom (fieldTarget field) below
        else '.' :: field.name.toList ++ renderFrom (fieldTarget field) (index :: below)

def render (path : SourcePath) : String := String.ofList (renderFrom (some .file) path)

end SourcePath

end SchemaGo
