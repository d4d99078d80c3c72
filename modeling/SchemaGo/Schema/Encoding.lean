import SchemaGo.Schema.Basic
import SchemaGo.Wire.Encoding

/-!
# Encoded messages

The bytes of a message value: its set fields by ascending number, each behind its key.  Numbers in a
list may share one key.
-/

namespace SchemaGo.Schema

/-! ## Defaults -/

def isZero : Value → Bool
  | .bool value => !value
  | .int32 value | .int64 value => value == 0
  | .uint32 value | .uint64 value => value == 0
  | .float value => value.value.isZero
  | .double value => value.value.isZero
  | .string value => value.isEmpty
  | .bytes value => value.isEmpty
  | .enum number _ => number == 0
  | _ => false

def Pool.isDefault (types : Pool) (type : FieldType) (value : Value) : Bool :=
  match type, value with
  | .single (.enum type), .enum number _ =>
    match (types.enum? type.fullName).bind (·.values.head?) with
    | some first => number == first.number
    | none => number == 0
  | _, value => isZero value

/-! ## Scalars -/

def signedBytes : ScalarKind → Int → Bytes
  | .sint32, n | .sint64, n => Wire.varint (Wire.zigzag n)
  | .sfixed32, n => Wire.fixedInt 4 n
  | .sfixed64, n => Wire.fixedInt 8 n
  | _, n => Wire.varint (Wire.pattern64 n)

def unsignedBytes : ScalarKind → Nat → Bytes
  | .fixed32, n => Wire.fixed 4 n
  | .fixed64, n => Wire.fixed 8 n
  | _, n => Wire.varint n

def scalarBytes (kind : ScalarKind) : Value → Bytes
  | .bool value => Wire.varint (if value then 1 else 0)
  | .int32 value | .int64 value => signedBytes kind value
  | .uint32 value | .uint64 value => unsignedBytes kind value
  | .float value => Wire.fixed 4 value.bits.toNat
  | .double value => Wire.fixed 8 value.bits.toNat
  | .string value => Wire.counted (Text.Utf8.encode value)
  | .bytes value => Wire.counted value
  | .enum number _ => Wire.varint (Wire.pattern64 number)
  | _ => []

def keyOfText (kind : ScalarKind) (text : String) : Value :=
  match kind with
  | .bool => .bool (text == "true")
  | .string => .string text
  | .uint32 | .fixed32 | .uint64 | .fixed64 => .uint64 (text.toNat?.getD 0)
  | _ => .int64 (text.toInt?.getD 0)

/-! ## Fields -/

def elementKey (number : Nat) (type : ElementType) : Bytes :=
  Wire.key number (Wire.WireClass.layout (Field.elementKind type).wireClass)

def keyed (number : Nat) (type : ElementType) (inner : Bytes) : Bytes :=
  match type with
  | .message _ => elementKey number type ++ Wire.counted inner
  | .group _ => elementKey number type ++ inner ++ Wire.key number 4
  | _ => elementKey number type ++ inner

def packed (number : Nat) (items : List Bytes) : Bytes :=
  Wire.key number 2 ++ Wire.counted items.flatten

def Pool.elementMessage? (types : Pool) : ElementType → Option MessageInfo
  | .message type | .group type => types.message? type.fullName
  | _ => none

def Pool.labelled? (types : Pool) (info : Option MessageInfo) (label : FieldLabel) :
    Option Field :=
  match label.extension with
  | some extension => (types.extension? extension.fullName).map fun (_, found) => found.field
  | none => info.bind fun info => info.fields.find? fun field => field.number == label.number

/-- Entries of maps have presence where their file has. -/
def Pool.entryPart (types : Pool) (dialect : Dialect) (number : Nat) (type : ElementType)
    (value : Value) (inner : Bytes) : Bytes :=
  if dialect == .proto3 && types.isDefault (.single type) value then []
  else keyed number type inner

/-- A field that holds one value, which is left out when it is a default without presence. -/
def Pool.singlePart (types : Pool) (field : Field) (value : Value) (inner : ElementType → Bytes) :
    Bytes :=
  match field.type with
  | .single type =>
    if !field.hasPresence && types.isDefault field.type value then []
    else keyed field.number type (inner type)
  | .map .. => []

def elementScalar : ElementType → ScalarKind
  | .scalar kind => kind
  | _ => .int32

mutual

def Pool.encode (types : Pool) (type : ElementType) : Value → Bytes
  | .message fields => types.encodeFields (types.elementMessage? type) fields
  | value => scalarBytes (elementScalar type) value
termination_by structural value => value

def Pool.encodeItems (types : Pool) (type : ElementType) : List Value → List Bytes
  | [] => []
  | item :: rest => types.encode type item :: types.encodeItems type rest
termination_by structural items => items

def Pool.encodeEntries (types : Pool) (dialect : Dialect) (number : Nat) (entry : MapEntry) :
    List (String × Value) → Bytes
  | [] => []
  | (text, value) :: rest =>
    let kind := elementScalar entry.key.type
    let key := keyOfText kind text
    let parts :=
      types.entryPart dialect 1 entry.key.type key (scalarBytes kind key) ++
        types.entryPart dialect 2 entry.value.type value (types.encode entry.value.type value)
    Wire.key number 2 ++ Wire.counted parts ++ types.encodeEntries dialect number entry rest
termination_by structural entries => entries

def Pool.encodeField (types : Pool) (field : Field) : Value → Bytes
  | .list items =>
    match field.type with
    | .single type =>
      let parts := types.encodeItems type items
      if field.bare.isPacked then packed field.number parts
      else (parts.map (keyed field.number type)).flatten
    | .map .. => []
  | .map entries =>
    match field.type with
    | .map entry => types.encodeEntries field.dialect field.number entry entries
    | .single _ => []
  | .message fields =>
    types.singlePart field (.message fields) fun type =>
      types.encodeFields (types.elementMessage? type) fields
  | value => types.singlePart field value fun type => scalarBytes (elementScalar type) value
termination_by structural value => value

def Pool.encodeFields (types : Pool) (info : Option MessageInfo) :
    List (FieldLabel × Value) → Bytes
  | [] => []
  | (label, value) :: rest =>
    (match types.labelled? info label with
      | some field => types.encodeField field value
      | none => []) ++ types.encodeFields info rest
termination_by structural fields => fields

end

end SchemaGo.Schema
