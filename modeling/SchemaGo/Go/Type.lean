import SchemaGo.Wire.Kind

/-!
# Go types

The Go type of a field: a base type for a single value, decorated for pointers and slices.
-/

namespace SchemaGo

inductive FieldKind where
  | scalar
  | map
  | list
  | struct
deriving DecidableEq, Repr

def FieldKind.name : FieldKind → String
  | .scalar => "Scalar"
  | .map => "Map"
  | .list => "List"
  | .struct => "Struct"

def FieldKind.ofName? (name : String) : Option FieldKind :=
  [FieldKind.scalar, .map, .list, .struct].find? fun kind => kind.name == name

namespace Go

def scalarBase : ScalarKind → String
  | .bool => "bool"
  | .int32 | .sint32 | .sfixed32 | .fixed32 => "int"
  | .uint32 => "uint"
  | .int64 | .sint64 | .sfixed64 | .fixed64 => "int64"
  | .uint64 => "uint64"
  | .float => "float32"
  | .double => "float64"
  | .string => "string"
  | .bytes => "[]byte"

def anyType : String := "interface\x7b\x7d"

def kindBase : WireKind → String
  | .scalar kind => scalarBase kind
  | .enum | .message => ""
  | .group => anyType

/-- Absent bytes are a nil slice, and so need no pointer. -/
def decorate (base : String) (wire : WireKind) (optional repeated : Bool) : String :=
  match wire with
  | .group => base
  | .message => if repeated then "[]*" ++ base else "*" ++ base
  | .scalar .bytes => if repeated then "[]" ++ base else base
  | _ => if repeated then "[]" ++ base else if optional then "*" ++ base else base

end Go

end SchemaGo
