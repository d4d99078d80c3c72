import SchemaGo.Go.Type

/-!
# Sections of a generated source

A generated source is put together from named sections.  The kind of a field selects the sections
that encode and decode it.
-/

namespace SchemaGo.Go

inductive Section where
  | file
  | message
  | enum
  | service
  | encodeScalar
  | encodeStruct
  | encodeMap
  | encodeRepeated
  | decodeScalar
  | decodeStruct
  | decodeMap
  | decodeRepeated
  | isZero
deriving DecidableEq, Repr

namespace Section

def name : Section → String
  | .file => "file"
  | .message => "message"
  | .enum => "enum"
  | .service => "service"
  | .encodeScalar => "encode_scalar"
  | .encodeStruct => "encode_struct"
  | .encodeMap => "encode_map"
  | .encodeRepeated => "encode_repeated"
  | .decodeScalar => "decode_scalar"
  | .decodeStruct => "decode_struct"
  | .decodeMap => "decode_map"
  | .decodeRepeated => "decode_repeated"
  | .isZero => "is_zero"

def all : List Section :=
  [.file, .message, .enum, .service, .encodeScalar, .encodeStruct, .encodeMap, .encodeRepeated,
    .decodeScalar, .decodeStruct, .decodeMap, .decodeRepeated, .isZero]

def encode : FieldKind → Section
  | .scalar => .encodeScalar
  | .struct => .encodeStruct
  | .map => .encodeMap
  | .list => .encodeRepeated

def decode : FieldKind → Section
  | .scalar => .decodeScalar
  | .struct => .decodeStruct
  | .map => .decodeMap
  | .list => .decodeRepeated

end Section

end SchemaGo.Go
