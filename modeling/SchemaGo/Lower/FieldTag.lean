import SchemaGo.Schema.Basic
import SchemaGo.Wire.Default

/-!
# Tags of fields

The tags that a linked field gets in the generated sources.
-/

namespace SchemaGo.Lower

def defaultKind (pool : Schema.Pool) : Schema.ElementType → Wire.DefaultKind
  | .scalar kind => .scalar kind
  | .enum type =>
    .enum (((pool.enum? type.fullName).map fun enum =>
      enum.values.map fun value => (value.name, value.number)).getD [])
  | .message _ | .group _ => .message

/-- A group goes by the name of its message. -/
def tagName (field : Schema.BareField) : String :=
  match field.type with
  | .group type => type.name
  | _ => field.name

def enumName? : Schema.ElementType → Option String
  | .enum type => some type.fullName
  | _ => none

def fieldDefault (pool : Schema.Pool) (field : Schema.BareField) :
    Except Wire.DefaultFault (Option String) :=
  match field.defaultText with
  | none => .ok none
  | some text => (Wire.formatDefault text (defaultKind pool field.type)).map some

def wireField (pool : Schema.Pool) (field : Schema.BareField) :
    Except Wire.DefaultFault WireField :=
  match fieldDefault pool field with
  | .error fault => .error fault
  | .ok default =>
    .ok {
      kind := field.wire
      number := field.number
      cardinality := field.cardinality
      packed := field.isPacked
      name := tagName field
      jsonName := field.jsonName
      proto3 := field.dialect == .proto3
      extension := false
      enumName := enumName? field.type
      oneof := field.oneof.isSome
      default }

def tagPair (key value : String) : String := key ++ ":\"" ++ value ++ "\""

def entryPairs (pool : Schema.Pool) :
    Schema.FieldType → Except Wire.DefaultFault (List (String × String))
  | .single _ => .ok []
  | .map entry => do
    let key ← wireField pool entry.key
    let value ← wireField pool entry.value
    return [("protobuf_key", key.tag true), ("protobuf_val", value.tag true)]

def structTag (pool : Schema.Pool) (field : Schema.Field) : Except Wire.DefaultFault String := do
  let own ← wireField pool field.bare
  let entry ← entryPairs pool field.type
  let pairs := ("protobuf", own.tag false) :: ("json", field.jsonName) :: entry
  return Text.joinWith " " (pairs.map fun (key, value) => tagPair key value)

/-! ## Tags of options -/

def scalarText? : Schema.Value → Option String
  | .bool value => some (if value then "true" else "false")
  | .int32 value | .int64 value => some (toString value)
  | .uint32 value | .uint64 value => some (toString value)
  | .float value => some (Decimal.plain .single value.value)
  | .double value => some (Decimal.plain .double value.value)
  | .string value => some value
  | .enum number _ => some (toString number)
  | _ => none

def escapeQuotes (s : String) : String :=
  String.ofList (s.toList.flatMap fun c => if c = '"' then ['\\', '"'] else [c])

def parentName (fullName : String) : String :=
  match Text.beforeLast? '.' fullName.toList with
  | some parent => Text.afterLast '.' (String.ofList parent)
  | none => ""

def extensionTags (field : Schema.Field) : List String :=
  match field.options with
  | none => []
  | some options =>
    options.custom.filterMap fun (extension, _, value) =>
      (scalarText? value).map fun text =>
        tagPair (parentName extension.fullName ++ "." ++ extension.name) (escapeQuotes text)

end SchemaGo.Lower
