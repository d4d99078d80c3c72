import SchemaGo.Schema.Metamodel
import SchemaGo.Schema.Parser

/-!
# Bundled files

Schema files that can be imported without being there: the description of schemas, and the common
message types.
-/

namespace SchemaGo.Schema.Bundled

def directory : String := "google/protobuf/"

def package : String := "google.protobuf"

/-! ## Building blocks -/

def field (label : Option Cardinality) (type : BaseDecl) (name : String) (number : Nat) :
    FieldDecl :=
  { label, type := .base type, name, number, options := [], oneof := none, comment := none }

def one (kind : ScalarKind) (name : String) (number : Nat) : FieldDecl :=
  field none (.scalar kind) name number

def many (kind : ScalarKind) (name : String) (number : Nat) : FieldDecl :=
  field (some .repeated) (.scalar kind) name number

def oneOf (type : String) (name : String) (number : Nat) : FieldDecl :=
  field none (.named type) name number

def manyOf (type : String) (name : String) (number : Nat) : FieldDecl :=
  field (some .repeated) (.named type) name number

def message (name : String) (fields : List FieldDecl) : MessageDecl :=
  .mk { MessageParts.empty name with fields } []

def enum (name : String) (values : List (String × Int)) : EnumDecl :=
  { name, values := values.map fun (name, number) => ⟨name, number, [], none⟩
    reservedRanges := [], reservedNames := [], options := [], comment := none, remarks := [] }

def file (imports : List String) (messages : List MessageDecl) (enums : List EnumDecl) : FileDecl :=
  { FileDecl.empty with
    dialect := some .proto3
    package := some package
    imports := imports.map fun name => ⟨directory ++ name, .plain, none⟩
    messages
    enums }

/-! ## Common types -/

def any : FileDecl := file [] [message "Any" [one .string "type_url" 1, one .bytes "value" 2]] []

def duration : FileDecl :=
  file [] [message "Duration" [one .int64 "seconds" 1, one .int32 "nanos" 2]] []

def timestamp : FileDecl :=
  file [] [message "Timestamp" [one .int64 "seconds" 1, one .int32 "nanos" 2]] []

def empty : FileDecl := file [] [message "Empty" []] []

def fieldMask : FileDecl := file [] [message "FieldMask" [many .string "paths" 1]] []

def sourceContext : FileDecl := file [] [message "SourceContext" [one .string "file_name" 1]] []

def wrappers : FileDecl :=
  file [] [
    message "DoubleValue" [one .double "value" 1],
    message "FloatValue" [one .float "value" 1],
    message "Int64Value" [one .int64 "value" 1],
    message "UInt64Value" [one .uint64 "value" 1],
    message "Int32Value" [one .int32 "value" 1],
    message "UInt32Value" [one .uint32 "value" 1],
    message "BoolValue" [one .bool "value" 1],
    message "StringValue" [one .string "value" 1],
    message "BytesValue" [one .bytes "value" 1]] []

def struct : FileDecl :=
  let entries : FieldDecl :=
    { label := none, type := .map .string (.named "Value") "FieldsEntry", name := "fields"
      number := 1, options := [], oneof := none, comment := none }
  let kinds := [
    oneOf "NullValue" "null_value" 1, one .double "number_value" 2, one .string "string_value" 3,
    one .bool "bool_value" 4, oneOf "Struct" "struct_value" 5, oneOf "ListValue" "list_value" 6]
  file [] [
    .mk { MessageParts.empty "Struct" with fields := [entries] }
      [Parser.entryMessage "fields" .string (.named "Value")],
    .mk { MessageParts.empty "Value" with
      fields := kinds.map fun field => { field with oneof := some 0 }
      oneofs := [⟨"kind", [], none⟩] } [],
    message "ListValue" [manyOf "Value" "values" 1]]
    [enum "NullValue" [("NULL_VALUE", 0)]]

/-! ## Types and interfaces as messages -/

def type : FileDecl :=
  file ["any.proto", "source_context.proto"] [
    message "Type" [
      one .string "name" 1, manyOf "Field" "fields" 2, many .string "oneofs" 3,
      manyOf "Option" "options" 4, oneOf "SourceContext" "source_context" 5,
      oneOf "Syntax" "syntax" 6, one .string "edition" 7],
    .mk { MessageParts.empty "Field" with
      fields := [
        oneOf "Kind" "kind" 1, oneOf "Cardinality" "cardinality" 2, one .int32 "number" 3,
        one .string "name" 4, one .string "type_url" 6, one .int32 "oneof_index" 7,
        one .bool "packed" 8, manyOf "Option" "options" 9, one .string "json_name" 10,
        one .string "default_value" 11]
      enums := [
        enum "Kind" [
          ("TYPE_UNKNOWN", 0), ("TYPE_DOUBLE", 1), ("TYPE_FLOAT", 2), ("TYPE_INT64", 3),
          ("TYPE_UINT64", 4), ("TYPE_INT32", 5), ("TYPE_FIXED64", 6), ("TYPE_FIXED32", 7),
          ("TYPE_BOOL", 8), ("TYPE_STRING", 9), ("TYPE_GROUP", 10), ("TYPE_MESSAGE", 11),
          ("TYPE_BYTES", 12), ("TYPE_UINT32", 13), ("TYPE_ENUM", 14), ("TYPE_SFIXED32", 15),
          ("TYPE_SFIXED64", 16), ("TYPE_SINT32", 17), ("TYPE_SINT64", 18)],
        enum "Cardinality" [
          ("CARDINALITY_UNKNOWN", 0), ("CARDINALITY_OPTIONAL", 1), ("CARDINALITY_REQUIRED", 2),
          ("CARDINALITY_REPEATED", 3)]] } [],
    message "Enum" [
      one .string "name" 1, manyOf "EnumValue" "enumvalue" 2, manyOf "Option" "options" 3,
      oneOf "SourceContext" "source_context" 4, oneOf "Syntax" "syntax" 5,
      one .string "edition" 6],
    message "EnumValue" [one .string "name" 1, one .int32 "number" 2, manyOf "Option" "options" 3],
    message "Option" [one .string "name" 1, oneOf "Any" "value" 2]]
    [enum "Syntax" [("SYNTAX_PROTO2", 0), ("SYNTAX_PROTO3", 1), ("SYNTAX_EDITIONS", 2)]]

def api : FileDecl :=
  file ["source_context.proto", "type.proto"] [
    message "Api" [
      one .string "name" 1, manyOf "Method" "methods" 2, manyOf "Option" "options" 3,
      one .string "version" 4, oneOf "SourceContext" "source_context" 5,
      manyOf "Mixin" "mixins" 6, oneOf "Syntax" "syntax" 7],
    message "Method" [
      one .string "name" 1, one .string "request_type_url" 2, one .bool "request_streaming" 3,
      one .string "response_type_url" 4, one .bool "response_streaming" 5,
      manyOf "Option" "options" 6, oneOf "Syntax" "syntax" 7],
    message "Mixin" [one .string "name" 1, one .string "root" 2]] []

/-! ## The description of schemas -/

def metaField (f : MetaField) : FieldDecl :=
  let type := match f.type with
    | .scalar kind => BaseDecl.scalar kind
    | .enum type => .named ("." ++ package ++ "." ++ type.name)
    | .message type => .named ("." ++ package ++ "." ++ type.name)
  field (some (if f.repeated then .repeated else .optional)) type f.name f.number

def nameBelow? (parent name : String) : Option String :=
  let start := (if parent.isEmpty then "" else parent ++ ".").toList
  let rest := name.toList.drop start.length
  if start.isPrefixOf name.toList && !rest.contains '.' then some (String.ofList rest) else none

def metaEnums (parent : String) : List EnumDecl :=
  MetaEnum.all.filterMap fun type =>
    (nameBelow? parent type.name).map fun name => enum name type.values

/-- The numbers that the options of an element leave open for extensions. -/
def openNumbers : ExtensionRangeDecl := ⟨⟨1000, none⟩, []⟩

def metaParts (type : MetaType) (name : String) : MessageParts :=
  { MessageParts.empty name with
    fields := type.fields.map metaField
    enums := metaEnums type.name
    extensionRanges := if type.isExtendable then [openNumbers] else [] }

def metaMessages : List MessageDecl :=
  MetaType.all.filterMap fun type =>
    (nameBelow? "" type.name).map fun name =>
      .mk (metaParts type name) (MetaType.all.filterMap fun inner =>
        (nameBelow? type.name inner.name).map fun name => .mk (metaParts inner name) [])

def optional (type : BaseDecl) (name : String) (number : Nat) : FieldDecl :=
  field (some .optional) type name number

def otherMessages : List MessageDecl := [
  message "FileDescriptorSet" [manyOf "FileDescriptorProto" "file" 1],
  .mk { MessageParts.empty "FeatureSetDefaults" with
    fields := [
      manyOf "FeatureSetEditionDefault" "defaults" 1,
      optional (.named "Edition") "minimum_edition" 4,
      optional (.named "Edition") "maximum_edition" 5] }
    [message "FeatureSetEditionDefault" [
      optional (.named "Edition") "edition" 3, optional (.named "FeatureSet") "features" 2]],
  .mk { MessageParts.empty "GeneratedCodeInfo" with
    fields := [manyOf "Annotation" "annotation" 1] }
    [.mk { MessageParts.empty "Annotation" with
      fields := [
        many .int32 "path" 1, optional (.scalar .string) "source_file" 2,
        optional (.scalar .int32) "begin" 3, optional (.scalar .int32) "end" 4,
        optional (.named "Semantic") "semantic" 5]
      enums := [enum "Semantic" [("NONE", 0), ("SET", 1), ("ALIAS", 2)]] } []]]

def descriptor : FileDecl :=
  { FileDecl.empty with
    dialect := some .proto2
    package := some package
    messages := metaMessages ++ otherMessages
    enums := metaEnums "" }

def plugin : FileDecl :=
  let text := fun (name : String) (number : Nat) => optional (.scalar .string) name number
  let described := fun (name : String) => BaseDecl.named ("." ++ package ++ "." ++ name)
  { FileDecl.empty with
    dialect := some .proto2
    package := some (package ++ ".compiler")
    imports := [⟨directory ++ "descriptor.proto", .plain, none⟩]
    messages := [
      message "Version" [
        optional (.scalar .int32) "major" 1, optional (.scalar .int32) "minor" 2,
        optional (.scalar .int32) "patch" 3, text "suffix" 4],
      message "CodeGeneratorRequest" [
        many .string "file_to_generate" 1, text "parameter" 2,
        field (some .repeated) (described "FileDescriptorProto") "proto_file" 15,
        field (some .repeated) (described "FileDescriptorProto") "source_file_descriptors" 17,
        optional (.named "Version") "compiler_version" 3],
      .mk { MessageParts.empty "CodeGeneratorResponse" with
        fields := [
          text "error" 1, optional (.scalar .uint64) "supported_features" 2,
          manyOf "File" "file" 15]
        enums := [enum "Feature" [("FEATURE_NONE", 0), ("FEATURE_PROTO3_OPTIONAL", 1),
          ("FEATURE_SUPPORTS_EDITIONS", 2)]] }
        [message "File" [
          text "name" 1, text "insertion_point" 2, text "content" 15,
          optional (described "GeneratedCodeInfo") "generated_code_info" 16]]] }

def files : List (String × FileDecl) := [
  (directory ++ "any.proto", any),
  (directory ++ "api.proto", api),
  (directory ++ "descriptor.proto", descriptor),
  (directory ++ "duration.proto", duration),
  (directory ++ "empty.proto", empty),
  (directory ++ "field_mask.proto", fieldMask),
  (directory ++ "source_context.proto", sourceContext),
  (directory ++ "struct.proto", struct),
  (directory ++ "timestamp.proto", timestamp),
  (directory ++ "type.proto", type),
  (directory ++ "wrappers.proto", wrappers),
  (directory ++ "compiler/plugin.proto", plugin)]

def hasBundledName (name : String) : Bool := directory.toList.isPrefixOf name.toList

end SchemaGo.Schema.Bundled
