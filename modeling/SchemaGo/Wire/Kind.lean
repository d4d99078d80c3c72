/-!
# Wire kinds

What a field holds, as far as its encoding is concerned, and the encoding class that leads a tag.
-/

namespace SchemaGo

inductive ScalarKind where
  | bool
  | int32
  | sint32
  | uint32
  | int64
  | sint64
  | uint64
  | sfixed32
  | fixed32
  | float
  | sfixed64
  | fixed64
  | double
  | string
  | bytes
deriving DecidableEq, Repr

inductive WireKind where
  | scalar (kind : ScalarKind)
  | enum
  | message
  | group
deriving DecidableEq, Repr

/-! ## Names -/

def ScalarKind.name : ScalarKind → String
  | .bool => "bool"
  | .int32 => "int32"
  | .sint32 => "sint32"
  | .uint32 => "uint32"
  | .int64 => "int64"
  | .sint64 => "sint64"
  | .uint64 => "uint64"
  | .sfixed32 => "sfixed32"
  | .fixed32 => "fixed32"
  | .float => "float"
  | .sfixed64 => "sfixed64"
  | .fixed64 => "fixed64"
  | .double => "double"
  | .string => "string"
  | .bytes => "bytes"

def WireKind.name : WireKind → String
  | .scalar kind => kind.name
  | .enum => "enum"
  | .message => "message"
  | .group => "group"

def ScalarKind.all : List ScalarKind :=
  [.bool, .int32, .sint32, .uint32, .int64, .sint64, .uint64, .sfixed32, .fixed32, .float,
    .sfixed64, .fixed64, .double, .string, .bytes]

def ScalarKind.ofName? (name : String) : Option ScalarKind :=
  ScalarKind.all.find? fun kind => kind.name == name

def WireKind.all : List WireKind :=
  ScalarKind.all.map .scalar ++ [.enum, .message, .group]

def WireKind.ofName? (name : String) : Option WireKind :=
  WireKind.all.find? fun kind => kind.name == name

/-! ## Encoding classes -/

inductive WireClass where
  | varint
  | zigzag32
  | zigzag64
  | fixed32
  | fixed64
  | bytes
  | group
deriving DecidableEq, Repr

def WireClass.name : WireClass → String
  | .varint => "varint"
  | .zigzag32 => "zigzag32"
  | .zigzag64 => "zigzag64"
  | .fixed32 => "fixed32"
  | .fixed64 => "fixed64"
  | .bytes => "bytes"
  | .group => "group"

def ScalarKind.wireClass : ScalarKind → WireClass
  | .bool | .int32 | .uint32 | .int64 | .uint64 => .varint
  | .sint32 => .zigzag32
  | .sint64 => .zigzag64
  | .sfixed32 | .fixed32 | .float => .fixed32
  | .sfixed64 | .fixed64 | .double => .fixed64
  | .string | .bytes => .bytes

def WireKind.wireClass : WireKind → WireClass
  | .scalar kind => kind.wireClass
  | .enum => .varint
  | .message => .bytes
  | .group => .group

end SchemaGo
