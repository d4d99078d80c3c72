import SchemaGo.Ast.Basic
import SchemaGo.Go.Name

/-!
# Go sources

The source generated for a lowered schema file, as a list of lines: a header, the imports, and then
the declarations of enums, messages and services in this order.
-/

namespace SchemaGo.Go

structure Emitter where
  runtimeImport : String
  runtime : String
deriving DecidableEq, Repr

def Emitter.ofImport (runtimeImport : String) : Emitter :=
  ⟨runtimeImport,
    Text.replaceChar '.' '_' (Text.replaceChar '-' '_' (Text.afterLast '/' runtimeImport))⟩

/-! ## Scalar codecs -/

/-- Runtime functions for a scalar, and the type the encoder takes when it is not the field's. -/
structure Codec where
  encoder : String
  decoder : String
  cast : Option String
deriving DecidableEq, Repr

def signedCodec : Codec := ⟨"SignedNumberEncoder", "SignedNumberDecoder", some "int64"⟩

def unsignedCodec : Codec := ⟨"UnsignedNumberEncoder", "UnsignedNumberDecoder", some "uint64"⟩

def codec? : WireKind → Option Codec
  | .scalar .bool => some ⟨"BoolEncoder", "BoolDecoder", none⟩
  | .scalar .int32 | .scalar .sint32 | .scalar .sfixed32 | .scalar .int64 | .scalar .sint64
  | .scalar .sfixed64 | .enum => some signedCodec
  | .scalar .uint32 | .scalar .uint64 | .scalar .fixed32 | .scalar .fixed64 => some unsignedCodec
  | .scalar .float => some ⟨"Float32Encoder", "Float32Decoder", none⟩
  | .scalar .double => some ⟨"Float64Encoder", "Float64Decoder", none⟩
  | .scalar .string => some ⟨"StringEncoder", "StringDecoder", none⟩
  | .scalar .bytes => some ⟨"BytesEncoder", "BytesDecoder", none⟩
  | .message | .group => none

/-! ## Statements -/

def block (head : String) : String := head ++ " \x7b"

def inFunction (line : String) : String := "\t" ++ line

def returnOnError : List String := [block "if err != nil", "\treturn err", "\x7d"]

def returnOnNil (target : String) : List String :=
  [block ("if " ++ target ++ " == nil"), "\treturn nil", "\x7d"]

def unsupported (wire : WireKind) : List String :=
  ["return fmt.Errorf(\"field %d: " ++ wire.name ++
    " fields are not supported\", field.Tags.Protobuf.FieldNum)"]

def fieldTarget (field : Ast.Field) : String := "x." ++ field.name

namespace Emitter

variable (emitter : Emitter)

def rt (name : String) : String := emitter.runtime ++ "." ++ name

/-! ## Encoding a field -/

def encodeArgument (codec : Codec) (field : Ast.Field) : String :=
  let value := if field.isPointer then "*" ++ fieldTarget field else fieldTarget field
  match codec.cast with
  | some cast => cast ++ "(" ++ value ++ ")"
  | none => value

def encodeScalar (field : Ast.Field) : List String :=
  match codec? field.wire with
  | none => unsupported field.wire
  | some codec =>
    (if field.isPointer then returnOnNil (fieldTarget field) else []) ++
      ["data, err := " ++ emitter.rt codec.encoder ++ "(" ++ encodeArgument codec field ++
        ", field)"] ++
      returnOnError ++
      ["defer " ++ emitter.rt "Dealloc(data)", "_, err = data.WriteTo(buffer)", "return err"]

def encodeBody (field : Ast.Field) : List String :=
  let target := fieldTarget field
  match field.kind with
  | .scalar => encodeScalar emitter field
  | .struct =>
    returnOnNil target ++ ["data, err := " ++ emitter.rt "FastMarshal(" ++ target ++ ")"] ++
      returnOnError ++ ["_, err = buffer.Write(data)", "return err"]
  | .map => ["return " ++ emitter.rt "MapEncoder(" ++ target ++ ", field, buffer)"]
  | .list => ["return " ++ emitter.rt "RepeatedEncoder(" ++ target ++ ", field, buffer)"]

/-! ## Decoding a field -/

def decodeScalar (field : Ast.Field) : List String :=
  match codec? field.wire with
  | none => unsupported field.wire
  | some codec =>
    ["value, err := " ++ emitter.rt codec.decoder ++ "(field, buffer)"] ++ returnOnError ++
      ["v := " ++ field.baseType ++ "(value)",
        fieldTarget field ++ (if field.isPointer then " = &v" else " = v"),
        "return nil"]

def elementType (type : String) : String :=
  match type.toList with
  | '[' :: ']' :: rest => String.ofList rest
  | _ => type

def decodeBody (field : Ast.Field) : List String :=
  let target := fieldTarget field
  match field.kind with
  | .scalar => decodeScalar emitter field
  | .struct =>
    ["data, err := " ++ emitter.rt "DecodeBytes(field, buffer)"] ++ returnOnError ++
      ["value := new(" ++ field.baseType ++ ")",
        block ("if err := " ++ emitter.rt "FastUnmarshal(value, data); err != nil"),
        "\treturn err", "\x7d", target ++ " = value", "return nil"]
  | .map =>
    [block ("if " ++ target ++ " == nil"), "\t" ++ target ++ " = make(" ++ field.type ++ ")",
      "\x7d", "return " ++ emitter.rt "MapDecoder(" ++ target ++ ", field, buffer)"]
  | .list =>
    ["values, err := " ++ emitter.rt "RepeatedDecoder[" ++ elementType field.type ++
        "](field, buffer)"] ++
      returnOnError ++
      [target ++ " = append(" ++ target ++ ", values...)", "return nil"]

/-! ## Testing a field for zero -/

def zeroTest (field : Ast.Field) : String :=
  let target := fieldTarget field
  match field.kind with
  | .map | .list => "len(" ++ target ++ ") == 0"
  | .struct => target ++ " == nil"
  | .scalar =>
    if field.wire == .group || field.isPointer then target ++ " == nil"
    else match field.wire with
      | .scalar .string | .scalar .bytes => "len(" ++ target ++ ") == 0"
      | .scalar .bool => "!" ++ target
      | _ => target ++ " == 0"

def zeroBody (field : Ast.Field) : List String := ["return " ++ zeroTest field]

/-! ## Messages -/

/-- The text between the backquotes: the struct tag and the tags of the extensions. -/
def fieldTag (field : Ast.Field) : String :=
  field.extensionTags.foldl (fun tag extra => tag ++ " " ++ extra) field.structTag

def fieldLine (field : Ast.Field) : String :=
  inFunction (field.name ++ " " ++ field.type ++ " `" ++ fieldTag field ++ "`")

def structLines (message : Ast.Message) : List String :=
  ["", block ("type " ++ message.name ++ " struct")] ++ message.fields.map fieldLine ++ ["\x7d"]

def function (head : String) (body : List String) : List String :=
  ["", block ("func " ++ head)] ++ body.map inFunction ++ ["\x7d"]

def fieldSwitch (fields : List Ast.Field) (body : Ast.Field → List String) (fallback : String) :
    List String :=
  [block "switch field.Tags.Protobuf.FieldNum"] ++
    fields.flatMap (fun field =>
      ("case " ++ toString field.number ++ ":") :: (body field).map inFunction) ++
    ["default:", inFunction fallback, "\x7d"]

def invalidField : String :=
  "return fmt.Errorf(\"invalid field %d\", field.Tags.Protobuf.FieldNum)"

def messageLines (message : Ast.Message) : List String :=
  let receiver := "(x *" ++ message.name ++ ") "
  let codecHead := fun (name : String) =>
    receiver ++ name ++ "(field *" ++ emitter.rt "Field, buffer *bytes.Buffer) error"
  structLines message ++
    function (receiver ++ "New() " ++ emitter.rt "Reflected")
      ["return new(" ++ message.name ++ ")"] ++
    function (receiver ++ "Type() " ++ emitter.rt "Type")
      ["return *" ++ emitter.rt "CaptureTypeByName(\"" ++ message.fullName ++ "\")"] ++
    function (receiver ++ "Descriptor() string") ["return \"" ++ message.descriptor ++ "\""] ++
    function (codecHead "Encode") (fieldSwitch message.fields emitter.encodeBody invalidField) ++
    function (codecHead "Decode") (fieldSwitch message.fields emitter.decodeBody invalidField) ++
    function (receiver ++ "IsZero(field *" ++ emitter.rt "Field) bool")
      (fieldSwitch message.fields zeroBody "return true")

/-! ## Enums -/

def firstNames (seen : List Int) : List Ast.EnumValue → List Ast.EnumValue
  | [] => []
  | value :: rest =>
    if value.number ∈ seen then firstNames seen rest
    else value :: firstNames (value.number :: seen) rest

def nameEntry (value : Ast.EnumValue) : String :=
  inFunction (toString value.number ++ ": \"" ++ value.name ++ "\",")

def valueEntry (value : Ast.EnumValue) : String :=
  inFunction ("\"" ++ value.name ++ "\": " ++ toString value.number ++ ",")

def constantLine (enum : Ast.Enum) (value : Ast.EnumValue) : String :=
  inFunction (enum.name ++ "_" ++ value.name ++ " " ++ enum.name ++ " = " ++ toString value.number)

def enumLines (enum : Ast.Enum) : List String :=
  let name := enum.name
  ["", "type " ++ name ++ " int32", "", "const ("] ++ enum.values.map (constantLine enum) ++
    [")", "", "var " ++ name ++ "_name = map[int32]string\x7b"] ++
    (firstNames [] enum.values).map nameEntry ++
    ["\x7d", "", "var " ++ name ++ "_value = map[string]int32\x7b"] ++
    enum.values.map valueEntry ++ ["\x7d"] ++
    function ("(x " ++ name ++ ") String() string")
      [block ("if name, ok := " ++ name ++ "_name[int32(x)]; ok"), "\treturn name", "\x7d",
        "return strconv.Itoa(int(x))"]

/-! ## Services -/

def signature (rpc : Ast.Rpc) : String :=
  let head := rpc.name ++ "(ctx context.Context, "
  let receive := "recv func() (*" ++ rpc.input ++ ", error)"
  let send := "send func(*" ++ rpc.output ++ ") error"
  match rpc.clientStreaming, rpc.serverStreaming with
  | false, false => head ++ "req *" ++ rpc.input ++ ") (*" ++ rpc.output ++ ", error)"
  | false, true => head ++ "req *" ++ rpc.input ++ ", " ++ send ++ ") error"
  | true, false => head ++ receive ++ ") (*" ++ rpc.output ++ ", error)"
  | true, true => head ++ receive ++ ", " ++ send ++ ") error"

def serviceLines (service : Ast.Service) : List String :=
  let name := exported service.name
  ["", "const " ++ name ++ "ServiceName = \"" ++ service.fullName ++ "\"", "",
    block ("type " ++ name ++ "Service interface")] ++
    service.rpcs.map (fun rpc => inFunction (signature rpc)) ++ ["\x7d"]

/-! ## Files -/

def identifierChar (c : Char) : Char :=
  if c.toNat < 128 && c.isAlphanum then c else '_'

def packageName (file : Ast.File) : String :=
  if !file.packageName.isEmpty then file.packageName
  else localName (String.ofList (file.fileName.toList.map identifierChar))

/-- Standard packages in alphabetical order. -/
def standardImports (file : Ast.File) : List String :=
  let messages := !file.messages.isEmpty
  (if messages then ["bytes"] else []) ++
    (if file.services.isEmpty then [] else ["context"]) ++
    (if messages then ["fmt"] else []) ++
    (if file.enums.isEmpty then [] else ["strconv"])

def importLine (path : String) : String := inFunction ("\"" ++ path ++ "\"")

def importLines (file : Ast.File) : List String :=
  let standard := standardImports file
  if standard.isEmpty then []
  else
    ["", "import ("] ++ standard.map importLine ++
      (if file.messages.isEmpty then [] else ["", importLine emitter.runtimeImport]) ++ [")"]

def headerLines (file : Ast.File) : List String :=
  ["// Code generated by protov. DO NOT EDIT.", "// source: " ++ file.source, "",
    "package " ++ packageName file]

def declarationLines (file : Ast.File) : List String :=
  file.enums.flatMap enumLines ++ file.messages.flatMap emitter.messageLines ++
    file.services.flatMap serviceLines

def fileLines (file : Ast.File) : List String :=
  headerLines file ++ emitter.importLines file ++ emitter.declarationLines file

def renderFile (file : Ast.File) : String :=
  String.join ((emitter.fileLines file).map (· ++ "\n"))

end Emitter

end SchemaGo.Go
