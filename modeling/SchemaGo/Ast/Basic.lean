import SchemaGo.Comment.Store
import SchemaGo.Go.Type
import SchemaGo.Option.Value
import SchemaGo.PathText

/-!
# Lowered schemas

What the emitters work on: each compiled schema file with its messages flattened into one list, its
enums and its services.  Files refer to each other by their position.
-/

namespace SchemaGo.Ast

abbrev FileId := Nat

structure Field where
  name : String
  protoName : String
  jsonName : String
  type : String
  baseType : String
  keyBaseType : String
  indexBaseType : String
  number : Nat
  wire : WireKind
  keyWire : Option WireKind
  valueWire : Option WireKind
  optional : Bool
  oneof : Option String
  tag : String
  structTag : String
  extensionTags : List String
  kind : FieldKind
  keyKind : Option FieldKind
  valueKind : Option FieldKind
  options : OptionMap
deriving BEq, Repr

def Field.isPointer (field : Field) : Bool := field.type.toList.head? == some '*'

/-- `ignorables` names the nested messages that are not emitted; `descriptor` is the encoded
description of the message. -/
structure Message where
  name : String
  fullName : String
  fields : List Field
  ignorables : TextSet
  options : OptionMap
  descriptor : String
  file : FileId
deriving BEq, Repr

structure EnumValue where
  name : String
  number : Int
  options : OptionMap
deriving BEq, Repr

structure Enum where
  name : String
  fullName : String
  values : List EnumValue
  options : OptionMap
  file : FileId
deriving BEq, Repr

structure Rpc where
  name : String
  input : String
  output : String
  inputFullName : String
  outputFullName : String
  clientStreaming : Bool
  serverStreaming : Bool
  options : OptionMap
  service : String
deriving BEq, Repr

structure Service where
  name : String
  fullName : String
  options : OptionMap
  rpcs : List Rpc
  codeGeneration : List String
  file : FileId
deriving BEq, Repr

/-- `source` is relative to `directory`; `filePath` and `packageName` come from the package option;
`embeddedFiles` were read while the file was lowered. -/
structure File where
  id : FileId
  directory : String
  source : String
  fileName : String
  filePath : String
  packageName : String
  package : String
  options : OptionMap
  messages : List Message
  enums : List Enum
  services : List Service
  comments : Comments
  embeddedFiles : List String
deriving BEq, Repr

end SchemaGo.Ast

namespace SchemaGo

structure Ast where
  files : List Ast.File
deriving BEq, Repr

namespace Ast

def empty : Ast := ⟨[]⟩

def file? (ast : Ast) (id : FileId) : Option File := ast.files[id]?

def nextId (ast : Ast) : FileId := ast.files.length

def distinctPaths (seen : List String) : List String → List String
  | [] => []
  | path :: rest =>
    if seen.any fun earlier => PathText.samePath earlier path then distinctPaths seen rest
    else path :: distinctPaths (path :: seen) rest

def dependencies (ast : Ast) : List String :=
  let sources := ast.files.map fun file => PathText.join file.directory file.source
  distinctPaths [] (sources ++ ast.files.flatMap (·.embeddedFiles))

end Ast

end SchemaGo
