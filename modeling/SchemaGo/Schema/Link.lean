import SchemaGo.Schema.Form

/-!
# Linking a file

The declarations of one file become a linked file: names are resolved, options are read, and the
rules of the dialect are checked.  Source locations are collected on the way.
-/

namespace SchemaGo.Schema

abbrev ReadOptions :=
  MetaType → String → List OptionDecl → Except SchemaFault (Option OptionSet × List Remark)

structure LinkContext where
  file : String
  dialect : Dialect
  scope : Scope
  readOptions : ReadOptions

abbrev Linker := StateT (List SourceLocation) (Except SchemaFault)

namespace Linker

def fail {α : Type} (fault : SchemaFault) : Linker α := throw fault

def require (condition : Bool) (fault : SchemaFault) : Linker Unit :=
  if condition then pure () else fail fault

def note (path : SourcePath) (comment : Option String) : Linker Unit :=
  match comment with
  | none => pure ()
  | some text => modify (· ++ [⟨path, some text, none⟩])

def noteAll (path : SourcePath) (remarks : List Remark) : Linker Unit :=
  remarks.forM fun remark => note (path ++ remark.path) (some remark.text)

def options (ctx : LinkContext) (target : MetaType) (element : String) (path : SourcePath)
    (decls : List OptionDecl) : Linker (Option OptionSet) := do
  let (options, remarks) ← (ctx.readOptions target element decls : Except SchemaFault _)
  noteAll path remarks
  return options

end Linker

open Linker

/-! ## Fields -/

def elementType (ctx : LinkContext) (around : String) : BaseDecl → Linker ElementType
  | .scalar kind => pure (.scalar kind)
  | .named name => do
    let (type, kind) ← (ctx.scope.resolveType SymbolKind.isType around name : Except SchemaFault _)
    return if kind == .enum then .enum type else .message type

/-- The type of a field as far as the field alone tells.  A map refers to the message of its entries
and to the type of its values. -/
def fieldType (ctx : LinkContext) (around : String) (decl : FieldDecl) : Linker FieldType := do
  match decl.type with
  | .base type => return .single (← elementType ctx around type)
  | .group name => return .single (.group ⟨name, qualify around name, ctx.file⟩)
  | .map _ value entry =>
    let _ ← elementType ctx around value
    return .single (← elementType ctx around (.named ("." ++ qualify around entry)))

def fieldCardinality (decl : FieldDecl) : Cardinality :=
  match decl.type with
  | .map .. => .repeated
  | _ => decl.label.getD .optional

def isWithheld (n : Nat) : Bool := 19000 ≤ n && n ≤ 19999

def fieldDefault (ctx : LinkContext) (decl : FieldDecl) (type : FieldType) :
    Linker (Option String) := do
  let text ← (decl.defaultText ctx.dialect : Except SchemaFault _)
  match type with
  | .single (.message _) => require text.isNone (.badDefault decl.name)
  | _ => pure ()
  return text

def linkField (ctx : LinkContext) (around : String) (path : SourcePath) (oneof : Option Nat)
    (decl : FieldDecl) : Linker Field := do
  note path decl.comment
  require (!isWithheld decl.number) (.badNumber decl.name)
  let fullName := qualify around decl.name
  let type ← fieldType ctx around decl
  let defaultText ← fieldDefault ctx decl type
  let jsonName ← (decl.jsonName : Except SchemaFault _)
  let options ← options ctx .fieldOptions fullName (path ++ [8]) decl.otherOptions
  return { name := decl.name, fullName, jsonName, number := decl.number
           cardinality := fieldCardinality decl, type
           dialect := ctx.dialect, oneof, defaultText
           proto3Optional := isMarkedOptional ctx.dialect decl, options }

/-- Links fields one after the other.  A field marked optional in the newer dialect gets a oneof of
its own, behind the declared ones; `next` is the position of the next such one. -/
def linkFields (ctx : LinkContext) (around : String) (path : SourcePath) (isMapEntry : Bool) :
    Nat → Nat → List FieldDecl → Linker (List Field)
  | _, _, [] => pure []
  | index, next, decl :: rest => do
    let synthetic := isMarkedOptional ctx.dialect decl && !isMapEntry
    let oneof := if synthetic then some next else decl.oneof
    let field ← linkField ctx around (path ++ [2, (index : Int)]) oneof decl
    let field := if isMapEntry then { field with proto3Optional := false } else field
    let fields ← linkFields ctx around path isMapEntry (index + 1)
      (if synthetic then next + 1 else next) rest
    return field :: fields

/-! ## Extensions -/

def linkExtension (ctx : LinkContext) (around : String) (path : SourcePath) (extendee : TypeRef) :
    Nat → List FieldDecl → Linker (List Extension)
  | _, [] => pure []
  | index, decl :: rest => do
    let field ← linkField ctx around (path ++ [(index : Int)]) none decl
    let extensions ← linkExtension ctx around path extendee (index + 1) rest
    return ⟨field, extendee⟩ :: extensions

def linkExtensions (ctx : LinkContext) (around : String) (path : SourcePath) :
    Nat → List ExtendDecl → Linker (List Extension)
  | _, [] => pure []
  | index, decl :: rest => do
    note path decl.comment
    let (extendee, _) ← (ctx.scope.resolveType (· == .message) around decl.extendee
      : Except SchemaFault _)
    let extensions ← linkExtension ctx around path extendee index decl.fields
    let others ← linkExtensions ctx around path (index + decl.fields.length) rest
    return extensions ++ others

/-! ## Enums -/

def switchesOn (name : String) (decls : List OptionDecl) : Bool :=
  decls.any fun option => option.path == [⟨name, false⟩] && option.value == .word false "true"

def EnumDecl.allowsAliases (decl : EnumDecl) : Bool := switchesOn "allow_alias" decl.options

def EnumDecl.reservedNumbers (decl : EnumDecl) : List NumberRange :=
  decl.reservedRanges.map (RangeDecl.toRange enumNumberLimit)

def checkEnum (ctx : LinkContext) (decl : EnumDecl) : Linker Unit := do
  match decl.values with
  | [] => fail (.emptyDeclaration decl.name)
  | first :: _ =>
    require (ctx.dialect == .proto2 || first.number == 0) (.badFirstValue decl.name)
  let numbers := decl.values.map (·.number)
  require (decl.allowsAliases || decide numbers.Nodup) (.duplicateNumber decl.name)
  require (numbers.all fun n => !decl.reservedNumbers.any (·.contains n)) (.badNumber decl.name)

def linkEnumValues (ctx : LinkContext) (around : String) (path : SourcePath) :
    Nat → List EnumValueDecl → Linker (List EnumValue)
  | _, [] => pure []
  | index, decl :: rest => do
    let valuePath := path ++ [2, (index : Int)]
    note valuePath decl.comment
    let options ← options ctx .enumValueOptions (qualify around decl.name) (valuePath ++ [3])
      decl.options
    let values ← linkEnumValues ctx around path (index + 1) rest
    return ⟨decl.name, decl.number, options⟩ :: values

def linkEnum (ctx : LinkContext) (around : String) (path : SourcePath) (decl : EnumDecl) :
    Linker Enum := do
  note path decl.comment
  noteAll path decl.remarks
  checkEnum ctx decl
  let fullName := qualify around decl.name
  let values ← linkEnumValues ctx around path 0 decl.values
  let options ← options ctx .enumOptions fullName (path ++ [3]) decl.options
  return { name := decl.name, fullName, values, reservedRanges := decl.reservedNumbers
           reservedNames := decl.reservedNames, options }

def linkEnums (ctx : LinkContext) (around : String) (path : SourcePath) :
    Nat → List EnumDecl → Linker (List Enum)
  | _, [] => pure []
  | index, decl :: rest => do
    let enum ← linkEnum ctx around (path ++ [(index : Int)]) decl
    return enum :: (← linkEnums ctx around path (index + 1) rest)

/-! ## Messages -/

def flatName (name : String) : String :=
  String.ofList ((name.toList.filter (· != '_')).map Char.toLower)

def MessageParts.numberLimit (parts : MessageParts) : Int :=
  if switchesOn "message_set_wire_format" parts.options then messageSetLimit else fieldNumberLimit

def MessageParts.reservedNumbers (parts : MessageParts) : List NumberRange :=
  parts.reservedRanges.map (RangeDecl.toRange parts.numberLimit)

def MessageParts.openNumbers (parts : MessageParts) : List NumberRange :=
  parts.extensionRanges.map fun decl => decl.range.toRange parts.numberLimit

/-- Entries of maps are declared by the maps themselves, or with an option. -/
def MessageParts.declaresEntry (parts : MessageParts) : Bool :=
  parts.isMapEntry || switchesOn "map_entry" parts.options

/-- Numbers and names of the fields of a message are distinct, and the numbers are free.  The newer
dialect does not tell names apart by underscores or the case of letters. -/
def checkMessage (dialect : Dialect) (parts : MessageParts) (fields : List Field) :
    Linker Unit := do
  let numbers := fields.map (·.number)
  let ranges := parts.reservedNumbers ++ parts.openNumbers
  require (decide numbers.Nodup) (.duplicateNumber parts.name)
  require (numbers.all fun n => !ranges.any (·.contains n)) (.badNumber parts.name)
  require (dialect == .proto2 || decide (fields.map fun field => flatName field.name).Nodup)
    (.clashingNames parts.name)
  require (decide (fields.map (·.jsonName)).Nodup) (.clashingNames parts.name)

def linkOneofs (ctx : LinkContext) (around : String) (path : SourcePath) :
    Nat → List OneofDecl → Linker (List Oneof)
  | _, [] => pure []
  | index, decl :: rest => do
    let oneofPath := path ++ [8, (index : Int)]
    note oneofPath decl.comment
    let options ← options ctx .oneofOptions (qualify around decl.name) (oneofPath ++ [2])
      decl.options
    let oneofs ← linkOneofs ctx around path (index + 1) rest
    return ⟨decl.name, options⟩ :: oneofs

def linkRanges (ctx : LinkContext) (around : String) (path : SourcePath) (limit : Int) :
    Nat → List ExtensionRangeDecl → Linker (List ExtensionRange)
  | _, [] => pure []
  | index, decl :: rest => do
    let options ← options ctx .extensionRangeOptions around (path ++ [5, (index : Int), 3])
      decl.options
    let ranges ← linkRanges ctx around path limit (index + 1) rest
    return ⟨decl.range.toRange limit, options⟩ :: ranges

def entryOptions : OptionSet := ⟨[(⟨7, "map_entry", none⟩, .bool true)], []⟩

def linkParts (ctx : LinkContext) (around : String) (path : SourcePath) (parts : MessageParts) :
    Linker MessageInfo := do
  note path parts.comment
  noteAll path parts.remarks
  let fullName := qualify around parts.name
  let fields ← linkFields ctx fullName path parts.isMapEntry 0 parts.oneofs.length parts.fields
  checkMessage ctx.dialect parts fields
  let enums ← linkEnums ctx fullName (path ++ [4]) 0 parts.enums
  let extensions ← linkExtensions ctx fullName (path ++ [6]) 0 parts.extensions
  let oneofs ← linkOneofs ctx fullName path 0 parts.oneofs
  let synthetic := if parts.isMapEntry then [] else
    (syntheticOneofs ctx.dialect parts.fields).map fun name => ⟨name, none⟩
  let ranges ← linkRanges ctx fullName path parts.numberLimit 0 parts.extensionRanges
  let options ← options ctx .messageOptions fullName (path ++ [7]) parts.options
  return { name := parts.name, fullName, fields, enums, extensions, oneofs := oneofs ++ synthetic
           extensionRanges := ranges, reservedRanges := parts.reservedNumbers
           reservedNames := parts.reservedNames, isMapEntry := parts.declaresEntry
           options := if parts.isMapEntry then some entryOptions else options }

mutual

def linkMessage (ctx : LinkContext) (around : String) (path : SourcePath) :
    MessageDecl → Linker Message
  | .mk parts nested => do
    let info ← linkParts ctx around path parts
    return .mk info (← linkMessages ctx (qualify around parts.name) (path ++ [3]) 0 nested)
termination_by structural message => message

def linkMessages (ctx : LinkContext) (around : String) (path : SourcePath) (index : Nat) :
    List MessageDecl → Linker (List Message)
  | [] => pure []
  | decl :: rest => do
    let message ← linkMessage ctx around (path ++ [(index : Int)]) decl
    return message :: (← linkMessages ctx around path (index + 1) rest)
termination_by structural messages => messages

end

/-! ## Services -/

def linkMethods (ctx : LinkContext) (around : String) (path : SourcePath) :
    Nat → List MethodDecl → Linker (List Method)
  | _, [] => pure []
  | index, decl :: rest => do
    let methodPath := path ++ [2, (index : Int)]
    note methodPath decl.comment
    let fullName := qualify around decl.name
    let message := fun name =>
      (ctx.scope.resolveType (· == .message) fullName name : Except SchemaFault _)
    let (input, _) ← message decl.input
    let (output, _) ← message decl.output
    let options ← options ctx .methodOptions fullName (methodPath ++ [4]) decl.options
    let methods ← linkMethods ctx around path (index + 1) rest
    return { name := decl.name, input, output, clientStreaming := decl.clientStreaming
             serverStreaming := decl.serverStreaming, options } :: methods

def linkServices (ctx : LinkContext) (around : String) : Nat → List ServiceDecl →
    Linker (List Service)
  | _, [] => pure []
  | index, decl :: rest => do
    let path : SourcePath := [6, index]
    note path decl.comment
    let fullName := qualify around decl.name
    let methods ← linkMethods ctx fullName path 0 decl.methods
    let options ← options ctx .serviceOptions fullName (path ++ [3]) decl.options
    let services ← linkServices ctx around (index + 1) rest
    return ⟨decl.name, fullName, methods, options⟩ :: services

/-! ## Files -/

def noteImports : Nat → List ImportDecl → Linker Unit
  | _, [] => pure ()
  | index, decl :: rest => do
    note [3, index] decl.comment
    noteImports (index + 1) rest

def linkDeclarations (ctx : LinkContext) (decl : FileDecl) : Linker File := do
  let package := decl.packageName
  noteAll [] decl.remarks
  noteImports 0 decl.imports
  let messages ← linkMessages ctx package [4] 0 decl.messages
  let enums ← linkEnums ctx package [5] 0 decl.enums
  let services ← linkServices ctx package 0 decl.services
  let extensions ← linkExtensions ctx package [7] 0 decl.extensions
  let options ← options ctx .fileOptions package [8] decl.options
  return { name := ctx.file, package, dialect := ctx.dialect
           declaresDialect := decl.dialect.isSome
           imports := decl.imports.map fun i => ⟨i.name, i.kind⟩
           messages, enums, services, extensions, options, locations := [] }

/-! ## Checks across declarations -/

def enumDefaultExists (types : Pool) (field : Field) : Bool :=
  match field.type, field.defaultText with
  | .single (.enum type), some text =>
    ((types.enum? type.fullName).map fun enum =>
      enum.values.any fun value => value.name == text).getD false
  | _, _ => true

def extensionFits (types : Pool) (extension : Extension) : Bool :=
  ((types.message? extension.extendee.fullName).map fun info =>
    info.extensionRanges.any (fun range => range.range.contains extension.field.number) &&
      !info.reservedRanges.any fun range => range.contains extension.field.number).getD false

def referenceFault? (types : Pool) (file : File) : Option SchemaFault :=
  let fields := file.allMessages.flatMap (·.fields) ++ file.allExtensions.map (·.field)
  match fields.find? fun field => !enumDefaultExists types field with
  | some field => some (.badDefault field.fullName)
  | none =>
    (file.allExtensions.find? fun extension => !extensionFits types extension).map fun extension =>
      .badNumber extension.field.fullName

def Pool.mapEntry? (types : Pool) (type : TypeRef) (isGroup : Bool) : Option MapEntry :=
  (types.message? type.fullName).bind fun info =>
    let part? : Nat → Option BareField := fun number =>
      (info.fields.find? fun part => part.number == number).map (·.bare)
    match info.isMapEntry, part? 1, part? 2 with
    | true, some key, some value => some ⟨type, isGroup, key, value⟩
    | _, _, _ => none

def Field.withEntry (types : Pool) (field : Field) : Field :=
  let entry? := match field.type with
    | .single (.message type) => types.mapEntry? type false
    | .single (.group type) => types.mapEntry? type true
    | _ => none
  match field.isRepeated, entry? with
  | true, some entry => { field with type := .map entry }
  | _, _ => field

/-- Links a file against the files before it.  Its declarations are linked without options first,
because its options may be of types that it declares itself.  `builtin` is the file that describes
schemas, in case none of the files is. -/
def linkFile (builtin : List File) (pool : Pool) (scope : Scope) (name : String)
    (decl : FileDecl) : Except SchemaFault File := do
  let bare : LinkContext :=
    { file := name, dialect := decl.actualDialect, scope
      readOptions := fun _ _ _ => .ok (none, []) }
  let (outline, _) ← (linkDeclarations bare decl).run []
  let outline := outline.mapFields (Field.withEntry ⟨pool.files ++ [outline] ++ builtin⟩)
  let types : Pool := ⟨pool.files ++ [outline] ++ builtin⟩
  if let some fault := referenceFault? types outline then throw fault
  let reader : OptionReader := ⟨types, scope⟩
  let (file, locations) ← (linkDeclarations { bare with readOptions := reader.read } decl).run []
  .ok { file.mapFields (Field.withEntry types) with locations }

end SchemaGo.Schema
