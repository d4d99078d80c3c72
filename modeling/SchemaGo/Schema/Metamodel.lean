import SchemaGo.Wire.Kind

/-!
# The schema of schemas

Schema files are themselves described by messages: a file holds messages, a message holds fields,
and each of them has options.  This module lists those messages with their fields.  The numbers lead
along a source location, and the options are what a schema may set without declaring it.
-/

namespace SchemaGo

inductive MetaType where
  | file
  | message
  | enum
  | service
  | field
  | fileOptions
  | sourceCodeInfo
  | extensionRange
  | messageOptions
  | oneof
  | reservedRange
  | enumValue
  | enumOptions
  | enumReservedRange
  | method
  | serviceOptions
  | fieldOptions
  | featureSet
  | uninterpretedOption
  | location
  | extensionRangeOptions
  | oneofOptions
  | enumValueOptions
  | methodOptions
  | editionDefault
  | namePart
  | declaration
deriving DecidableEq, Repr

inductive MetaEnum where
  | edition
  | fieldType
  | label
  | optimizeMode
  | cType
  | jsType
  | optionRetention
  | optionTarget
  | idempotencyLevel
  | fieldPresence
  | enumType
  | repeatedFieldEncoding
  | utf8Validation
  | messageEncoding
  | jsonFormat
  | verificationState
deriving DecidableEq, Repr

inductive MetaFieldType where
  | scalar (kind : ScalarKind)
  | enum (type : MetaEnum)
  | message (type : MetaType)
deriving DecidableEq, Repr

structure MetaField where
  number : Nat
  name : String
  repeated : Bool
  type : MetaFieldType
deriving DecidableEq, Repr

/-! ## Messages -/

namespace MetaType

def one (number : Nat) (name : String) (type : MetaFieldType) : MetaField :=
  ⟨number, name, false, type⟩

def many (number : Nat) (name : String) (type : MetaFieldType) : MetaField :=
  ⟨number, name, true, type⟩

def name : MetaType → String
  | .file => "FileDescriptorProto"
  | .message => "DescriptorProto"
  | .enum => "EnumDescriptorProto"
  | .service => "ServiceDescriptorProto"
  | .field => "FieldDescriptorProto"
  | .fileOptions => "FileOptions"
  | .sourceCodeInfo => "SourceCodeInfo"
  | .extensionRange => "DescriptorProto.ExtensionRange"
  | .messageOptions => "MessageOptions"
  | .oneof => "OneofDescriptorProto"
  | .reservedRange => "DescriptorProto.ReservedRange"
  | .enumValue => "EnumValueDescriptorProto"
  | .enumOptions => "EnumOptions"
  | .enumReservedRange => "EnumDescriptorProto.EnumReservedRange"
  | .method => "MethodDescriptorProto"
  | .serviceOptions => "ServiceOptions"
  | .fieldOptions => "FieldOptions"
  | .featureSet => "FeatureSet"
  | .uninterpretedOption => "UninterpretedOption"
  | .location => "SourceCodeInfo.Location"
  | .extensionRangeOptions => "ExtensionRangeOptions"
  | .oneofOptions => "OneofOptions"
  | .enumValueOptions => "EnumValueOptions"
  | .methodOptions => "MethodOptions"
  | .editionDefault => "FieldOptions.EditionDefault"
  | .namePart => "UninterpretedOption.NamePart"
  | .declaration => "ExtensionRangeOptions.Declaration"

def all : List MetaType :=
  [.file, .message, .enum, .service, .field,
    .fileOptions, .sourceCodeInfo, .extensionRange, .messageOptions, .oneof,
    .reservedRange, .enumValue, .enumOptions, .enumReservedRange, .method,
    .serviceOptions, .fieldOptions, .featureSet, .uninterpretedOption, .location,
    .extensionRangeOptions, .oneofOptions, .enumValueOptions, .methodOptions, .editionDefault,
    .namePart, .declaration]

def fields : MetaType → List MetaField
  | .file => [
      one 1 "name" (.scalar .string),
      one 2 "package" (.scalar .string),
      many 3 "dependency" (.scalar .string),
      many 4 "message_type" (.message .message),
      many 5 "enum_type" (.message .enum),
      many 6 "service" (.message .service),
      many 7 "extension" (.message .field),
      one 8 "options" (.message .fileOptions),
      one 9 "source_code_info" (.message .sourceCodeInfo),
      many 10 "public_dependency" (.scalar .int32),
      many 11 "weak_dependency" (.scalar .int32),
      one 12 "syntax" (.scalar .string),
      one 14 "edition" (.enum .edition)]
  | .message => [
      one 1 "name" (.scalar .string),
      many 2 "field" (.message .field),
      many 3 "nested_type" (.message .message),
      many 4 "enum_type" (.message .enum),
      many 5 "extension_range" (.message .extensionRange),
      many 6 "extension" (.message .field),
      one 7 "options" (.message .messageOptions),
      many 8 "oneof_decl" (.message .oneof),
      many 9 "reserved_range" (.message .reservedRange),
      many 10 "reserved_name" (.scalar .string)]
  | .enum => [
      one 1 "name" (.scalar .string),
      many 2 "value" (.message .enumValue),
      one 3 "options" (.message .enumOptions),
      many 4 "reserved_range" (.message .enumReservedRange),
      many 5 "reserved_name" (.scalar .string)]
  | .service => [
      one 1 "name" (.scalar .string),
      many 2 "method" (.message .method),
      one 3 "options" (.message .serviceOptions)]
  | .field => [
      one 1 "name" (.scalar .string),
      one 2 "extendee" (.scalar .string),
      one 3 "number" (.scalar .int32),
      one 4 "label" (.enum .label),
      one 5 "type" (.enum .fieldType),
      one 6 "type_name" (.scalar .string),
      one 7 "default_value" (.scalar .string),
      one 8 "options" (.message .fieldOptions),
      one 9 "oneof_index" (.scalar .int32),
      one 10 "json_name" (.scalar .string),
      one 17 "proto3_optional" (.scalar .bool)]
  | .fileOptions => [
      one 1 "java_package" (.scalar .string),
      one 8 "java_outer_classname" (.scalar .string),
      one 9 "optimize_for" (.enum .optimizeMode),
      one 10 "java_multiple_files" (.scalar .bool),
      one 11 "go_package" (.scalar .string),
      one 16 "cc_generic_services" (.scalar .bool),
      one 17 "java_generic_services" (.scalar .bool),
      one 18 "py_generic_services" (.scalar .bool),
      one 20 "java_generate_equals_and_hash" (.scalar .bool),
      one 23 "deprecated" (.scalar .bool),
      one 27 "java_string_check_utf8" (.scalar .bool),
      one 31 "cc_enable_arenas" (.scalar .bool),
      one 36 "objc_class_prefix" (.scalar .string),
      one 37 "csharp_namespace" (.scalar .string),
      one 39 "swift_prefix" (.scalar .string),
      one 40 "php_class_prefix" (.scalar .string),
      one 41 "php_namespace" (.scalar .string),
      one 42 "php_generic_services" (.scalar .bool),
      one 44 "php_metadata_namespace" (.scalar .string),
      one 45 "ruby_package" (.scalar .string),
      one 50 "features" (.message .featureSet),
      many 999 "uninterpreted_option" (.message .uninterpretedOption)]
  | .sourceCodeInfo => [
      many 1 "location" (.message .location)]
  | .extensionRange => [
      one 1 "start" (.scalar .int32),
      one 2 "end" (.scalar .int32),
      one 3 "options" (.message .extensionRangeOptions)]
  | .messageOptions => [
      one 1 "message_set_wire_format" (.scalar .bool),
      one 2 "no_standard_descriptor_accessor" (.scalar .bool),
      one 3 "deprecated" (.scalar .bool),
      one 7 "map_entry" (.scalar .bool),
      one 11 "deprecated_legacy_json_field_conflicts" (.scalar .bool),
      one 12 "features" (.message .featureSet),
      many 999 "uninterpreted_option" (.message .uninterpretedOption)]
  | .oneof => [
      one 1 "name" (.scalar .string),
      one 2 "options" (.message .oneofOptions)]
  | .reservedRange => [
      one 1 "start" (.scalar .int32),
      one 2 "end" (.scalar .int32)]
  | .enumValue => [
      one 1 "name" (.scalar .string),
      one 2 "number" (.scalar .int32),
      one 3 "options" (.message .enumValueOptions)]
  | .enumOptions => [
      one 2 "allow_alias" (.scalar .bool),
      one 3 "deprecated" (.scalar .bool),
      one 6 "deprecated_legacy_json_field_conflicts" (.scalar .bool),
      one 7 "features" (.message .featureSet),
      many 999 "uninterpreted_option" (.message .uninterpretedOption)]
  | .enumReservedRange => [
      one 1 "start" (.scalar .int32),
      one 2 "end" (.scalar .int32)]
  | .method => [
      one 1 "name" (.scalar .string),
      one 2 "input_type" (.scalar .string),
      one 3 "output_type" (.scalar .string),
      one 4 "options" (.message .methodOptions),
      one 5 "client_streaming" (.scalar .bool),
      one 6 "server_streaming" (.scalar .bool)]
  | .serviceOptions => [
      one 33 "deprecated" (.scalar .bool),
      one 34 "features" (.message .featureSet),
      many 999 "uninterpreted_option" (.message .uninterpretedOption)]
  | .fieldOptions => [
      one 1 "ctype" (.enum .cType),
      one 2 "packed" (.scalar .bool),
      one 3 "deprecated" (.scalar .bool),
      one 5 "lazy" (.scalar .bool),
      one 6 "jstype" (.enum .jsType),
      one 10 "weak" (.scalar .bool),
      one 15 "unverified_lazy" (.scalar .bool),
      one 16 "debug_redact" (.scalar .bool),
      one 17 "retention" (.enum .optionRetention),
      many 19 "targets" (.enum .optionTarget),
      many 20 "edition_defaults" (.message .editionDefault),
      one 21 "features" (.message .featureSet),
      many 999 "uninterpreted_option" (.message .uninterpretedOption)]
  | .featureSet => [
      one 1 "field_presence" (.enum .fieldPresence),
      one 2 "enum_type" (.enum .enumType),
      one 3 "repeated_field_encoding" (.enum .repeatedFieldEncoding),
      one 4 "utf8_validation" (.enum .utf8Validation),
      one 5 "message_encoding" (.enum .messageEncoding),
      one 6 "json_format" (.enum .jsonFormat)]
  | .uninterpretedOption => [
      many 2 "name" (.message .namePart),
      one 3 "identifier_value" (.scalar .string),
      one 4 "positive_int_value" (.scalar .uint64),
      one 5 "negative_int_value" (.scalar .int64),
      one 6 "double_value" (.scalar .double),
      one 7 "string_value" (.scalar .bytes),
      one 8 "aggregate_value" (.scalar .string)]
  | .location => [
      many 1 "path" (.scalar .int32),
      many 2 "span" (.scalar .int32),
      one 3 "leading_comments" (.scalar .string),
      one 4 "trailing_comments" (.scalar .string),
      many 6 "leading_detached_comments" (.scalar .string)]
  | .extensionRangeOptions => [
      many 2 "declaration" (.message .declaration),
      one 3 "verification" (.enum .verificationState),
      one 50 "features" (.message .featureSet),
      many 999 "uninterpreted_option" (.message .uninterpretedOption)]
  | .oneofOptions => [
      one 1 "features" (.message .featureSet),
      many 999 "uninterpreted_option" (.message .uninterpretedOption)]
  | .enumValueOptions => [
      one 1 "deprecated" (.scalar .bool),
      one 2 "features" (.message .featureSet),
      one 3 "debug_redact" (.scalar .bool),
      many 999 "uninterpreted_option" (.message .uninterpretedOption)]
  | .methodOptions => [
      one 33 "deprecated" (.scalar .bool),
      one 34 "idempotency_level" (.enum .idempotencyLevel),
      one 35 "features" (.message .featureSet),
      many 999 "uninterpreted_option" (.message .uninterpretedOption)]
  | .editionDefault => [
      one 2 "value" (.scalar .string),
      one 3 "edition" (.enum .edition)]
  | .namePart => [
      one 1 "name_part" (.scalar .string),
      one 2 "is_extension" (.scalar .bool)]
  | .declaration => [
      one 1 "number" (.scalar .int32),
      one 2 "full_name" (.scalar .string),
      one 3 "type" (.scalar .string),
      one 5 "reserved" (.scalar .bool),
      one 6 "repeated" (.scalar .bool)]

def field? (type : MetaType) (number : Int) : Option MetaField :=
  type.fields.find? fun field => (field.number : Int) == number

def shownOptions : MetaType → List Nat
  | .messageOptions => [1, 2, 3, 7]
  | .fieldOptions => [1, 2, 3, 5, 6, 10]
  | .enumOptions => [2, 3]
  | .enumValueOptions => [1]
  | _ => []

def isExtendable : MetaType → Bool
  | .fileOptions | .messageOptions | .fieldOptions | .oneofOptions | .extensionRangeOptions
  | .enumOptions | .enumValueOptions | .serviceOptions | .methodOptions => true
  | _ => false

end MetaType

/-! ## Enums -/

namespace MetaEnum

def name : MetaEnum → String
  | .edition => "Edition"
  | .fieldType => "FieldDescriptorProto.Type"
  | .label => "FieldDescriptorProto.Label"
  | .optimizeMode => "FileOptions.OptimizeMode"
  | .cType => "FieldOptions.CType"
  | .jsType => "FieldOptions.JSType"
  | .optionRetention => "FieldOptions.OptionRetention"
  | .optionTarget => "FieldOptions.OptionTargetType"
  | .idempotencyLevel => "MethodOptions.IdempotencyLevel"
  | .fieldPresence => "FeatureSet.FieldPresence"
  | .enumType => "FeatureSet.EnumType"
  | .repeatedFieldEncoding => "FeatureSet.RepeatedFieldEncoding"
  | .utf8Validation => "FeatureSet.Utf8Validation"
  | .messageEncoding => "FeatureSet.MessageEncoding"
  | .jsonFormat => "FeatureSet.JsonFormat"
  | .verificationState => "ExtensionRangeOptions.VerificationState"

def all : List MetaEnum :=
  [.edition, .fieldType, .label, .optimizeMode, .cType,
    .jsType, .optionRetention, .optionTarget, .idempotencyLevel, .fieldPresence,
    .enumType, .repeatedFieldEncoding, .utf8Validation, .messageEncoding, .jsonFormat,
    .verificationState]

def values : MetaEnum → List (String × Int)
  | .edition =>
    [("EDITION_UNKNOWN", 0), ("EDITION_PROTO2", 998), ("EDITION_PROTO3", 999),
      ("EDITION_2023", 1000), ("EDITION_1_TEST_ONLY", 1), ("EDITION_2_TEST_ONLY", 2),
      ("EDITION_99997_TEST_ONLY", 99997), ("EDITION_99998_TEST_ONLY", 99998),
      ("EDITION_99999_TEST_ONLY", 99999)]
  | .fieldType =>
    [("TYPE_DOUBLE", 1), ("TYPE_FLOAT", 2), ("TYPE_INT64", 3), ("TYPE_UINT64", 4),
      ("TYPE_INT32", 5), ("TYPE_FIXED64", 6), ("TYPE_FIXED32", 7), ("TYPE_BOOL", 8),
      ("TYPE_STRING", 9), ("TYPE_GROUP", 10), ("TYPE_MESSAGE", 11), ("TYPE_BYTES", 12),
      ("TYPE_UINT32", 13), ("TYPE_ENUM", 14), ("TYPE_SFIXED32", 15), ("TYPE_SFIXED64", 16),
      ("TYPE_SINT32", 17), ("TYPE_SINT64", 18)]
  | .label =>
    [("LABEL_OPTIONAL", 1), ("LABEL_REPEATED", 3), ("LABEL_REQUIRED", 2)]
  | .optimizeMode =>
    [("SPEED", 1), ("CODE_SIZE", 2), ("LITE_RUNTIME", 3)]
  | .cType =>
    [("STRING", 0), ("CORD", 1), ("STRING_PIECE", 2)]
  | .jsType =>
    [("JS_NORMAL", 0), ("JS_STRING", 1), ("JS_NUMBER", 2)]
  | .optionRetention =>
    [("RETENTION_UNKNOWN", 0), ("RETENTION_RUNTIME", 1), ("RETENTION_SOURCE", 2)]
  | .optionTarget =>
    [("TARGET_TYPE_UNKNOWN", 0), ("TARGET_TYPE_FILE", 1), ("TARGET_TYPE_EXTENSION_RANGE", 2),
      ("TARGET_TYPE_MESSAGE", 3), ("TARGET_TYPE_FIELD", 4), ("TARGET_TYPE_ONEOF", 5),
      ("TARGET_TYPE_ENUM", 6), ("TARGET_TYPE_ENUM_ENTRY", 7), ("TARGET_TYPE_SERVICE", 8),
      ("TARGET_TYPE_METHOD", 9)]
  | .idempotencyLevel =>
    [("IDEMPOTENCY_UNKNOWN", 0), ("NO_SIDE_EFFECTS", 1), ("IDEMPOTENT", 2)]
  | .fieldPresence =>
    [("FIELD_PRESENCE_UNKNOWN", 0), ("EXPLICIT", 1), ("IMPLICIT", 2), ("LEGACY_REQUIRED", 3)]
  | .enumType =>
    [("ENUM_TYPE_UNKNOWN", 0), ("OPEN", 1), ("CLOSED", 2)]
  | .repeatedFieldEncoding =>
    [("REPEATED_FIELD_ENCODING_UNKNOWN", 0), ("PACKED", 1), ("EXPANDED", 2)]
  | .utf8Validation =>
    [("UTF8_VALIDATION_UNKNOWN", 0), ("NONE", 1), ("VERIFY", 2)]
  | .messageEncoding =>
    [("MESSAGE_ENCODING_UNKNOWN", 0), ("LENGTH_PREFIXED", 1), ("DELIMITED", 2)]
  | .jsonFormat =>
    [("JSON_FORMAT_UNKNOWN", 0), ("ALLOW", 1), ("LEGACY_BEST_EFFORT", 2)]
  | .verificationState =>
    [("DECLARATION", 0), ("UNVERIFIED", 1)]

end MetaEnum

end SchemaGo
