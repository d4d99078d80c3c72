import SchemaGo.Number.Decimal
import SchemaGo.Schema.Link
import SchemaGo.Text.Base64
import SchemaGo.Text.Json

/-!
# Descriptions of messages

A linked message as JSON, with the keys in the order of their field numbers and nothing that is not
set.  Options that extensions declare are left out.
-/

namespace SchemaGo.Schema

open SchemaGo.Text

/-! ## Options -/

def Value.whole? : Value → Option Int
  | .bool value => some (if value then 1 else 0)
  | .int32 value | .int64 value => some value
  | .uint32 value | .uint64 value => some value
  | .enum number _ => some number
  | _ => none

def MetaField.valueToJson? (field : MetaField) (value : Value) : Option String :=
  match field.type, value.whole? with
  | .scalar .bool, some n => some (Json.bool (n != 0))
  | .enum type, some n =>
    match type.values.find? fun (_, number) => number == n with
    | some (name, _) => some (Json.string name)
    | none => some (toString n)
  | _, _ => none

def OptionPart.toJson (part : OptionPart) : String :=
  Json.object [("namePart", Json.string part.name), ("isExtension", Json.bool part.isExtension)]

def Constant.toJsonEntry : Constant → List (String × String)
  | .word _ name => [("identifierValue", Json.string name)]
  | .integer false n => [("positiveIntValue", Json.string (toString n))]
  | .integer true n => [("negativeIntValue", Json.string (toString (-(n : Int))))]
  | .float negative value =>
    [("doubleValue", Decimal.plain .double (if negative then value.negate else value))]
  | .text bytes => [("stringValue", Json.string (Base64.encode bytes))]
  | .list _ | .aggregate _ | .malformed => []

def OptionDecl.toJson (decl : OptionDecl) : String :=
  Json.object (Json.entries "name" decl.path OptionPart.toJson ++ decl.value.toJsonEntry)

/-- The built-in options that descriptions show, by their numbers, and those left unmarked. -/
def OptionSet.toJson (target : MetaType) (options : OptionSet) : String :=
  let shown := options.fields.filterMap fun (label, value) =>
    if label.extension.isSome || !(label.number ∈ target.shownOptions) then none
    else (target.field? label.number).bind fun field =>
      (MetaField.valueToJson? field value).map fun text => (jsonNameOf field.name, text)
  Json.object (shown ++ Json.entries "uninterpretedOption" options.unmarked OptionDecl.toJson)

def optionsEntry (target : MetaType) (options : Option OptionSet) : List (String × String) :=
  Json.entry? "options" options (OptionSet.toJson target)

/-! ## Fields -/

def labelName : Cardinality → String
  | .optional => "LABEL_OPTIONAL"
  | .required => "LABEL_REQUIRED"
  | .repeated => "LABEL_REPEATED"

def typeName (kind : WireKind) : String :=
  "TYPE_" ++ String.ofList (kind.name.toList.map Char.toUpper)

def absoluteName (type : TypeRef) : String := Json.string ("." ++ type.fullName)

def Field.toJson (extendee : Option TypeRef) (field : Field) : String :=
  Json.object (
    Json.entry "name" (Json.string field.name) ++
    Json.entry? "extendee" extendee absoluteName ++
    Json.entry "number" (toString field.number) ++
    Json.entry "label" (Json.string (labelName field.cardinality)) ++
    Json.entry "type" (Json.string (typeName field.wire)) ++
    Json.entry? "typeName" field.type.element.definition? absoluteName ++
    Json.entry? "defaultValue" field.defaultText Json.string ++
    optionsEntry .fieldOptions field.options ++
    Json.entry? "oneofIndex" field.oneof (fun index => toString index) ++
    Json.entry "jsonName" (Json.string field.jsonName) ++
    Json.entryWhen field.proto3Optional "proto3Optional" (Json.bool true))

def Extension.toJson (extension : Extension) : String :=
  extension.field.toJson (some extension.extendee)

/-! ## Enums and ranges -/

def rangeToJson (first last : Int) (more : List (String × String)) : String :=
  Json.object (Json.entry "start" (toString first) ++ Json.entry "end" (toString last) ++ more)

def EnumValue.toJson (value : EnumValue) : String :=
  Json.object (
    Json.entry "name" (Json.string value.name) ++
    Json.entry "number" (toString value.number) ++
    optionsEntry .enumValueOptions value.options)

def Enum.toJson (enum : Enum) : String :=
  Json.object (
    Json.entry "name" (Json.string enum.name) ++
    Json.entries "value" enum.values EnumValue.toJson ++
    optionsEntry .enumOptions enum.options ++
    Json.entries "reservedRange" enum.reservedRanges
      (fun range => rangeToJson range.first (range.stop - 1) []) ++
    Json.entries "reservedName" enum.reservedNames Json.string)

def Oneof.toJson (oneof : Oneof) : String :=
  Json.object (Json.entry "name" (Json.string oneof.name) ++
    optionsEntry .oneofOptions oneof.options)

/-! ## Messages -/

mutual

def Message.toJson : Message → String
  | .mk info nested =>
    Json.object (
      Json.entry "name" (Json.string info.name) ++
      Json.entries "field" info.fields (Field.toJson none) ++
      Json.entries "nestedType" (messagesToJson nested) id ++
      Json.entries "enumType" info.enums Enum.toJson ++
      Json.entries "extensionRange" info.extensionRanges
        (fun range => rangeToJson range.range.first range.range.stop
          (optionsEntry .extensionRangeOptions range.options)) ++
      Json.entries "extension" info.extensions Extension.toJson ++
      optionsEntry .messageOptions info.options ++
      Json.entries "oneofDecl" info.oneofs Oneof.toJson ++
      Json.entries "reservedRange" info.reservedRanges
        (fun range => rangeToJson range.first range.stop []) ++
      Json.entries "reservedName" info.reservedNames Json.string)
termination_by structural message => message

def messagesToJson : List Message → List String
  | [] => []
  | message :: rest => message.toJson :: messagesToJson rest
termination_by structural messages => messages

end

def Message.description (message : Message) : String :=
  Base64.encode (Utf8.encode message.toJson)

end SchemaGo.Schema
