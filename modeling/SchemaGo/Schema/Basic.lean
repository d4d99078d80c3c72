import SchemaGo.Comment.Store
import SchemaGo.Schema.Declaration

/-!
# Linked schemas

A schema whose names are resolved: every type is known by its full name and the file that declares
it, and every option has a typed value.
-/

namespace SchemaGo.Schema

structure TypeRef where
  name : String
  fullName : String
  file : String
deriving DecidableEq, Repr

inductive ElementType where
  | scalar (kind : ScalarKind)
  | enum (type : TypeRef)
  | message (type : TypeRef)
  | group (type : TypeRef)
deriving DecidableEq, Repr

def ElementType.definition? : ElementType → Option TypeRef
  | .scalar _ => none
  | .enum type | .message type | .group type => some type

/-- A field without its options.  A map is here the repeated field of its entries that it is encoded
as.  `oneof` is the position of the oneof that the field belongs to, and `defaultText` the declared
default. -/
structure BareField where
  name : String
  jsonName : String
  number : Nat
  cardinality : Cardinality
  type : ElementType
  dialect : Dialect
  oneof : Option Nat
  defaultText : Option String
deriving DecidableEq, Repr

/-- The message or group that holds the entries of a map, with the fields numbered 1 and 2 of it. -/
structure MapEntry where
  type : TypeRef
  isGroup : Bool
  key : BareField
  value : BareField
deriving DecidableEq, Repr

inductive FieldType where
  | single (type : ElementType)
  | map (entry : MapEntry)
deriving DecidableEq, Repr

def MapEntry.element (entry : MapEntry) : ElementType :=
  if entry.isGroup then .group entry.type else .message entry.type

def FieldType.element : FieldType → ElementType
  | .single type => type
  | .map entry => entry.element

/-! ## Values -/

structure FieldLabel where
  number : Nat
  name : String
  extension : Option TypeRef
deriving DecidableEq, Repr

/-- The value of an option.  The fields of a message are those that are set, by ascending number;
the entries of a map are by ascending key. -/
inductive Value where
  | bool (value : Bool)
  | int32 (value : Int)
  | int64 (value : Int)
  | uint32 (value : Nat)
  | uint64 (value : Nat)
  | float (value : Binary32)
  | double (value : Binary64)
  | string (value : String)
  | bytes (value : Bytes)
  | enum (number : Int) (name : Option String)
  | list (items : List Value)
  | map (entries : List (String × Value))
  | message (fields : List (FieldLabel × Value))
deriving BEq, Repr

/-- The options of an element, as the set fields of the message that describes them.  `unmarked`
keeps the options as they are written, when that message has no field to tell that they are read. -/
structure OptionSet where
  fields : List (FieldLabel × Value)
  unmarked : List OptionDecl
deriving BEq, Repr

def OptionSet.custom (options : OptionSet) : List (TypeRef × Nat × Value) :=
  options.fields.filterMap fun (label, value) =>
    label.extension.map fun extension => (extension, label.number, value)

def OptionSet.builtin (options : OptionSet) : List (String × Value) :=
  options.fields.filterMap fun (label, value) =>
    if label.extension.isNone then some (label.name, value) else none

/-! ## Elements -/

structure Field where
  name : String
  fullName : String
  jsonName : String
  number : Nat
  cardinality : Cardinality
  type : FieldType
  dialect : Dialect
  oneof : Option Nat
  defaultText : Option String
  proto3Optional : Bool
  options : Option OptionSet
deriving BEq, Repr

structure Extension where
  field : Field
  extendee : TypeRef
deriving BEq, Repr

structure Oneof where
  name : String
  options : Option OptionSet
deriving BEq, Repr

structure EnumValue where
  name : String
  number : Int
  options : Option OptionSet
deriving BEq, Repr

structure Enum where
  name : String
  fullName : String
  values : List EnumValue
  reservedRanges : List NumberRange
  reservedNames : List String
  options : Option OptionSet
deriving BEq, Repr

structure ExtensionRange where
  range : NumberRange
  options : Option OptionSet
deriving BEq, Repr

structure MessageInfo where
  name : String
  fullName : String
  fields : List Field
  enums : List Enum
  extensions : List Extension
  oneofs : List Oneof
  extensionRanges : List ExtensionRange
  reservedRanges : List NumberRange
  reservedNames : List String
  isMapEntry : Bool
  options : Option OptionSet
deriving BEq, Repr

inductive Message where
  | mk (info : MessageInfo) (nested : List Message)
deriving BEq, Repr

def Message.info : Message → MessageInfo
  | .mk info _ => info

def Message.nested : Message → List Message
  | .mk _ nested => nested

structure Method where
  name : String
  input : TypeRef
  output : TypeRef
  clientStreaming : Bool
  serverStreaming : Bool
  options : Option OptionSet
deriving BEq, Repr

structure Service where
  name : String
  fullName : String
  methods : List Method
  options : Option OptionSet
deriving BEq, Repr

structure Import where
  name : String
  kind : ImportKind
deriving DecidableEq, Repr

structure File where
  name : String
  package : String
  dialect : Dialect
  declaresDialect : Bool
  imports : List Import
  messages : List Message
  enums : List Enum
  services : List Service
  extensions : List Extension
  options : Option OptionSet
  locations : List SourceLocation
deriving BEq, Repr

structure Pool where
  files : List File
deriving BEq, Repr

/-! ## Fields by rule -/

namespace Field

def isRepeated (field : Field) : Bool := field.cardinality == .repeated

def isMap (field : Field) : Bool :=
  match field.type with
  | .map .. => true
  | .single _ => false

def isList (field : Field) : Bool := field.isRepeated && !field.isMap

def elementKind : ElementType → WireKind
  | .scalar kind => .scalar kind
  | .enum _ => .enum
  | .message _ => .message
  | .group _ => .group

def wire (field : Field) : WireKind := elementKind field.type.element

def isPackable : WireKind → Bool
  | .scalar .string | .scalar .bytes | .message | .group => false
  | _ => true

def bare (field : Field) : BareField where
  name := field.name
  jsonName := field.jsonName
  number := field.number
  cardinality := field.cardinality
  type := field.type.element
  dialect := field.dialect
  oneof := field.oneof
  defaultText := field.defaultText

/-- Declared with a word that says it may be missing. -/
def isMarkedOptional (field : Field) : Bool :=
  field.proto3Optional ||
    (field.dialect == .proto2 && field.cardinality == .optional && field.oneof.isNone)

def hasPresence (field : Field) : Bool :=
  !field.isRepeated &&
    (field.dialect == .proto2 || field.oneof.isSome || field.wire == .message ||
      field.wire == .group)

end Field

namespace BareField

def wire (field : BareField) : WireKind := Field.elementKind field.type

def isPacked (field : BareField) : Bool :=
  field.dialect == .proto3 && field.cardinality == .repeated && Field.isPackable field.wire

end BareField

/-! ## Orders -/

def insertByKey {α : Type} (key : α → Int) (item : α) : List α → List α
  | [] => [item]
  | other :: rest =>
    if key item ≤ key other then item :: other :: rest
    else other :: insertByKey key item rest

def MessageInfo.fieldsByNumber (info : MessageInfo) : List Field :=
  info.fields.foldr (insertByKey fun field => (field.number : Int)) []

/-- The values by ascending number; of equal numbers the one declared later comes first. -/
def Enum.valuesByNumber (enum : Enum) : List EnumValue :=
  enum.values.foldl (fun values value => insertByKey (·.number) value values) []

/-! ## Looking up -/

mutual

def Message.flatten : Message → List MessageInfo
  | .mk info nested => info :: flattenAll nested
termination_by structural message => message

def flattenAll : List Message → List MessageInfo
  | [] => []
  | message :: rest => message.flatten ++ flattenAll rest
termination_by structural messages => messages

end

/-! ## Changing fields -/

def Extension.mapField (f : Field → Field) (extension : Extension) : Extension :=
  { extension with field := f extension.field }

def MessageInfo.mapFields (f : Field → Field) (info : MessageInfo) : MessageInfo :=
  { info with fields := info.fields.map f, extensions := info.extensions.map (·.mapField f) }

mutual

def Message.mapFields (f : Field → Field) : Message → Message
  | .mk info nested => .mk (info.mapFields f) (mapFieldsAll f nested)
termination_by structural message => message

def mapFieldsAll (f : Field → Field) : List Message → List Message
  | [] => []
  | message :: rest => message.mapFields f :: mapFieldsAll f rest
termination_by structural messages => messages

end

def File.mapFields (f : Field → Field) (file : File) : File :=
  { file with
    messages := mapFieldsAll f file.messages
    extensions := file.extensions.map (·.mapField f) }

namespace File

def allMessages (file : File) : List MessageInfo := flattenAll file.messages

def allEnums (file : File) : List Enum := file.enums ++ file.allMessages.flatMap (·.enums)

def allExtensions (file : File) : List Extension :=
  file.extensions ++ file.allMessages.flatMap (·.extensions)

end File

namespace Pool

def file? (pool : Pool) (name : String) : Option File := pool.files.find? fun f => f.name == name

def message? (pool : Pool) (fullName : String) : Option MessageInfo :=
  pool.files.findSome? fun file => file.allMessages.find? fun m => m.fullName == fullName

def enum? (pool : Pool) (fullName : String) : Option Enum :=
  pool.files.findSome? fun file => file.allEnums.find? fun e => e.fullName == fullName

def extension? (pool : Pool) (fullName : String) : Option (TypeRef × Extension) :=
  pool.files.findSome? fun file =>
    (file.allExtensions.find? fun e => e.field.fullName == fullName).map fun e =>
      (⟨e.field.name, fullName, file.name⟩, e)

end Pool

end SchemaGo.Schema
