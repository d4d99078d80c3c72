import SchemaGo.Lower.FieldTag
import SchemaGo.Lower.GoType
import SchemaGo.Lower.OptionValue
import SchemaGo.Option.Normal
import SchemaGo.Schema.Description
import SchemaGo.Schema.Load

/-!
# Lowering files

A linked file becomes what the emitters work on.  Messages are flattened, parents first, without the
entries of maps.  The options of every element are unwrapped at its source location.
-/

namespace SchemaGo

inductive LowerFault where
  | badDefault (fault : Wire.DefaultFault)
  | embed (fault : EmbedFault)
  | inMessage (name : String) (cause : LowerFault)
  | inField (name : String) (cause : LowerFault)
  | inEnum (name : String) (cause : LowerFault)
  | inService (name : String) (cause : LowerFault)
  | inRpc (name : String) (cause : LowerFault)
deriving DecidableEq, Repr

def LowerFault.message : LowerFault → String
  | .badDefault fault => fault.message
  | .embed fault => fault.message
  | .inMessage name cause => s!"message {name}: {cause.message}"
  | .inField name cause => s!"field {name}: {cause.message}"
  | .inEnum name cause => s!"enum {name}: {cause.message}"
  | .inService name cause => s!"service {name}: {cause.message}"
  | .inRpc name cause => s!"rpc {name}: {cause.message}"

abbrev Lowering := StateT (List String) (Except LowerFault)

namespace Lowering

structure Context where
  scope : EmbedScope
  pool : Schema.Pool
  id : Ast.FileId

def wrap {α : Type} (around : LowerFault → LowerFault) (part : Lowering α) : Lowering α :=
  fun embedded =>
    match part embedded with
    | .ok result => .ok result
    | .error fault => .error (around fault)

def options (ctx : Context) (path : SourcePath) (options : Option Schema.OptionSet) :
    Lowering OptionMap :=
  fun embedded =>
    match ctx.scope.unwrapOptions path options embedded with
    | .ok result => .ok result
    | .error fault => .error (.embed fault)

def defaulted {α : Type} (part : Except Wire.DefaultFault α) : Lowering α :=
  match part with
  | .ok result => pure result
  | .error fault => throw (.badDefault fault)

def child (path : SourcePath) (number : Int) (index : Nat) : SourcePath :=
  path ++ [number, (index : Int)]

/-! ## Messages -/

def astField (oneofs : List Schema.Oneof) (field : Schema.Field) (wire : WireField)
    (structTag : String) (options : OptionMap) : Ast.Field :=
  let go := Lower.goType field
  { name := Go.fieldName field.name
    protoName := field.name
    jsonName := field.jsonName
    type := go.full
    baseType := go.base
    keyBaseType := go.keyBase
    indexBaseType := go.valueBase
    number := field.number
    wire := wire.kind
    keyWire := go.keyWire
    valueWire := go.valueWire
    optional := field.isMarkedOptional
    oneof := field.oneof.bind fun index => oneofs[index]?.map (·.name)
    tag := wire.tag false
    structTag
    extensionTags := Lower.extensionTags field
    kind := go.kind
    keyKind := go.keyKind
    valueKind := go.valueKind
    options }

def field (ctx : Context) (path : SourcePath) (oneofs : List Schema.Oneof) (field : Schema.Field) :
    Lowering Ast.Field := do
  let wire ← defaulted (Lower.wireField ctx.pool field.bare)
  let structTag ← defaulted (Lower.structTag ctx.pool field)
  let options ← options ctx (path ++ [8]) field.options
  return astField oneofs field wire structTag options

/-- The fields of a message; `index` is the position in the order of their numbers. -/
def fields (ctx : Context) (path : SourcePath) (oneofs : List Schema.Oneof) :
    Nat → List Schema.Field → Lowering (List Ast.Field)
  | _, [] => pure []
  | index, declared :: rest => do
    let lowered ← wrap (.inField declared.name) (field ctx (child path 2 index) oneofs declared)
    return lowered :: (← fields ctx path oneofs (index + 1) rest)

def entryNames (fields : List Schema.Field) : TextSet :=
  TextSet.ofList (fields.filterMap fun field =>
    match field.type with
    | .map entry => some entry.type.name
    | .single _ => none)

def message (ctx : Context) (path : SourcePath) (message : Schema.Message) :
    Lowering Ast.Message := do
  let info := message.info
  let fields ← fields ctx path info.oneofs 0 info.fieldsByNumber
  let options ← options ctx (path ++ [7]) info.options
  return {
    name := info.name
    fullName := info.fullName
    fields
    ignorables := entryNames info.fields
    options
    descriptor := message.description
    file := ctx.id }

mutual

def messageTree (ctx : Context) (path : SourcePath) : Schema.Message → Lowering (List Ast.Message)
  | .mk info nested => do
    let lowered ← wrap (.inMessage info.fullName) (message ctx path (.mk info nested))
    return lowered :: (← messages ctx lowered.ignorables path 3 0 nested)
termination_by structural message => message

/-- Messages one after the other, without those whose names are to be ignored.  The position counts
all of them. -/
def messages (ctx : Context) (ignorables : TextSet) (path : SourcePath) (number : Int)
    (index : Nat) : List Schema.Message → Lowering (List Ast.Message)
  | [] => pure []
  | .mk info nested :: rest => do
    let first ← if info.name ∈ ignorables then pure []
      else messageTree ctx (child path number index) (.mk info nested)
    return first ++ (← messages ctx ignorables path number (index + 1) rest)
termination_by structural messages => messages

end

/-! ## Enums -/

def enumValues (ctx : Context) (path : SourcePath) :
    Nat → List Schema.EnumValue → Lowering (List Ast.EnumValue)
  | _, [] => pure []
  | index, value :: rest => do
    let options ← options ctx (child path 2 index ++ [3]) value.options
    return { name := value.name, number := value.number, options } ::
      (← enumValues ctx path (index + 1) rest)

def enum (ctx : Context) (path : SourcePath) (enum : Schema.Enum) : Lowering Ast.Enum := do
  let values ← enumValues ctx path 0 enum.valuesByNumber
  let options ← options ctx (path ++ [3]) enum.options
  return { name := enum.name, fullName := enum.fullName, values, options, file := ctx.id }

def enums (ctx : Context) (path : SourcePath) (number : Int) :
    Nat → List Schema.Enum → Lowering (List Ast.Enum)
  | _, [] => pure []
  | index, declared :: rest => do
    let lowered ← wrap (.inEnum declared.fullName) (enum ctx (child path number index) declared)
    return lowered :: (← enums ctx path number (index + 1) rest)

mutual

def enumTree (ctx : Context) (path : SourcePath) : Schema.Message → Lowering (List Ast.Enum)
  | .mk info nested => do
    let own ← enums ctx path 4 0 info.enums
    return own ++ (← nestedEnums ctx (entryNames info.fields) path 3 0 nested)
termination_by structural message => message

def nestedEnums (ctx : Context) (ignorables : TextSet) (path : SourcePath) (number : Int)
    (index : Nat) : List Schema.Message → Lowering (List Ast.Enum)
  | [] => pure []
  | .mk info nested :: rest => do
    let first ← if info.name ∈ ignorables then pure []
      else enumTree ctx (child path number index) (.mk info nested)
    return first ++ (← nestedEnums ctx ignorables path number (index + 1) rest)
termination_by structural messages => messages

end

/-! ## Services -/

def rpc (ctx : Context) (path : SourcePath) (service : String) (method : Schema.Method) :
    Lowering Ast.Rpc := do
  let options ← options ctx (path ++ [4]) method.options
  return {
    name := method.name
    input := method.input.name
    output := method.output.name
    inputFullName := method.input.fullName
    outputFullName := method.output.fullName
    clientStreaming := method.clientStreaming
    serverStreaming := method.serverStreaming
    options
    service }

def rpcs (ctx : Context) (path : SourcePath) (service : String) :
    Nat → List Schema.Method → Lowering (List Ast.Rpc)
  | _, [] => pure []
  | index, method :: rest => do
    let lowered ← wrap (.inRpc method.name) (rpc ctx (child path 2 index) service method)
    return lowered :: (← rpcs ctx path service (index + 1) rest)

/-- The templates asked for are those of the comment on the service. -/
def service (ctx : Context) (path : SourcePath) (service : Schema.Service) :
    Lowering Ast.Service := do
  let rpcs ← rpcs ctx path service.name 0 service.methods
  let options ← options ctx (path ++ [3]) service.options
  return normalizeService {
    name := service.name
    fullName := service.fullName
    options
    rpcs
    codeGeneration := ctx.scope.comments.directiveValues path.render Directive.generate
    file := ctx.id }

def services (ctx : Context) : Nat → List Schema.Service → Lowering (List Ast.Service)
  | _, [] => pure []
  | index, declared :: rest => do
    let lowered ← wrap (.inService declared.fullName) (service ctx (child [] 6 index) declared)
    return lowered :: (← services ctx (index + 1) rest)

/-! ## Files -/

def parts (ctx : Context) (file : Schema.File) :
    Lowering (OptionMap × List Ast.Message × List Ast.Enum × List Ast.Service) := do
  let options ← options ctx [8] file.options
  let messages ← messages ctx [] [] 4 0 file.messages
  let top ← enums ctx [] 5 0 file.enums
  let nested ← nestedEnums ctx [] [] 4 0 file.messages
  let services ← services ctx 0 file.services
  return (options, messages, top ++ nested, services)

end Lowering

def Schema.File.goPackage (file : Schema.File) : String :=
  match file.options.bind fun options => options.builtin.lookup "go_package" with
  | some (.string value) => value
  | _ => ""

def Schema.Linked.lower (linked : Schema.Linked) (files : FileTree) (id : Ast.FileId) :
    Except LowerFault Ast.File :=
  let file := linked.file
  let comments := Comments.ofLocations file.locations
  let (filePath, packageName) := Go.splitPackage file.goPackage
  let ctx : Lowering.Context := ⟨⟨comments, linked.directory, files⟩, linked.pool, id⟩
  match Lowering.parts ctx file [] with
  | .error fault => .error fault
  | .ok ((options, messages, enums, services), embeddedFiles) =>
    .ok {
      id
      directory := linked.directory
      source := file.name
      fileName := Go.fileStem file.name
      filePath
      packageName
      package := file.package
      options
      messages
      enums
      services
      comments
      embeddedFiles }

end SchemaGo
