import SchemaGo.Ast.Basic

/-!
# Plain values

A lowered schema as a tree of plain values, the form in which it is handed to templates and written
out.  Keys are in Pascal case; what only the compiler needs is left out.
-/

namespace SchemaGo

/-- The entries of an object are in the order of their declaration. -/
inductive Plain where
  | null
  | bool (value : Bool)
  | int (value : Int)
  | float (value : Binary64)
  | text (value : String)
  | list (items : List Plain)
  | object (entries : List (String × Plain))
deriving BEq, Repr

namespace Plain

def ofList (items : List Plain) : Plain := .list items

def ofTexts (texts : List String) : Plain := .list (texts.map .text)

def ofFields (entries : List (String × Plain)) : Plain := .object entries

def optional {α : Type} (toPlain : α → Plain) : Option α → Plain
  | none => .null
  | some value => toPlain value

def nat (n : Nat) : Plain := .int n

end Plain

/-! ## Option values -/

def Scalar.toPlain : Scalar → Plain
  | .bool value => .bool value
  | .int value => .int value
  | .uint value => .int value
  | .float value => .float value
  | .string value => .text value
  | .bytes value => .list (value.map fun b => .int b.toNat)
  | .literal text => .text text

namespace OptionValue

mutual

def toPlain : OptionValue → Plain
  | .scalar value => value.toPlain
  | .list items => .list (itemsToPlain items)
  | .map entries => .object (entriesToPlain entries)
termination_by structural value => value

def itemsToPlain : List OptionValue → List Plain
  | [] => []
  | item :: rest => item.toPlain :: itemsToPlain rest
termination_by structural items => items

def entriesToPlain : List (String × OptionValue) → List (String × Plain)
  | [] => []
  | (key, value) :: rest => (key, value.toPlain) :: entriesToPlain rest
termination_by structural entries => entries

end

end OptionValue

/-! ## Schemas -/

namespace Ast

def optionsToPlain (options : OptionMap) : Plain :=
  .object (OptionValue.entriesToPlain options)

def wireToPlain (wire : WireKind) : Plain := .text wire.name

def kindToPlain (kind : FieldKind) : Plain := .text kind.name

def Field.toPlain (field : Field) : Plain :=
  .ofFields [
    ("Name", .text field.name),
    ("ProtoName", .text field.protoName),
    ("JsonName", .text field.jsonName),
    ("Type", .text field.type),
    ("BaseType", .text field.baseType),
    ("KeyBaseType", .text field.keyBaseType),
    ("IndexBaseType", .text field.indexBaseType),
    ("Number", .nat field.number),
    ("Wire", wireToPlain field.wire),
    ("KeyWire", .optional wireToPlain field.keyWire),
    ("ValueWire", .optional wireToPlain field.valueWire),
    ("Optional", .bool field.optional),
    ("Oneof", .optional .text field.oneof),
    ("Tag", .text field.tag),
    ("StructTag", .text field.structTag),
    ("ExtensionTags", .ofTexts field.extensionTags),
    ("Kind", kindToPlain field.kind),
    ("KeyKind", .optional kindToPlain field.keyKind),
    ("ValueKind", .optional kindToPlain field.valueKind),
    ("Options", optionsToPlain field.options)]

def Message.toPlain (message : Message) : Plain :=
  .ofFields [
    ("Name", .text message.name),
    ("FullName", .text message.fullName),
    ("Fields", .list (message.fields.map Field.toPlain)),
    ("Ignorables", .ofTexts message.ignorables),
    ("Options", optionsToPlain message.options),
    ("Descriptor", .text message.descriptor)]

def EnumValue.toPlain (value : EnumValue) : Plain :=
  .ofFields [
    ("Name", .text value.name),
    ("Number", .int value.number),
    ("Options", optionsToPlain value.options)]

def Enum.toPlain (enum : Enum) : Plain :=
  .ofFields [
    ("Name", .text enum.name),
    ("FullName", .text enum.fullName),
    ("Values", .list (enum.values.map EnumValue.toPlain)),
    ("Options", optionsToPlain enum.options)]

def Rpc.toPlain (rpc : Rpc) : Plain :=
  .ofFields [
    ("Name", .text rpc.name),
    ("Input", .text rpc.input),
    ("Output", .text rpc.output),
    ("InputFullName", .text rpc.inputFullName),
    ("OutputFullName", .text rpc.outputFullName),
    ("ClientStreaming", .bool rpc.clientStreaming),
    ("ServerStreaming", .bool rpc.serverStreaming),
    ("Options", optionsToPlain rpc.options),
    ("Service", .text rpc.service)]

def Service.toPlain (service : Service) : Plain :=
  .ofFields [
    ("Name", .text service.name),
    ("FullName", .text service.fullName),
    ("Options", optionsToPlain service.options),
    ("Rpcs", .list (service.rpcs.map Rpc.toPlain)),
    ("CodeGeneration", .ofTexts service.codeGeneration)]

def File.toPlain (file : File) : Plain :=
  .ofFields [
    ("Dir", .text file.directory),
    ("Source", .text file.source),
    ("FileName", .text file.fileName),
    ("FilePath", .text file.filePath),
    ("PackageName", .text file.packageName),
    ("Package", .text file.package),
    ("Options", optionsToPlain file.options),
    ("Messages", .list (file.messages.map Message.toPlain)),
    ("Enums", .list (file.enums.map Enum.toPlain)),
    ("Services", .list (file.services.map Service.toPlain)),
    ("Comments", .object (file.comments.entries.map fun (path, text) => (path, .text text)))]

def toPlain (ast : Ast) : Plain := .ofFields [("Files", .list (ast.files.map File.toPlain))]

end Ast

end SchemaGo
