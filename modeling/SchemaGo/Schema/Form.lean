import SchemaGo.Number.Decimal
import SchemaGo.Schema.Setting
import SchemaGo.Wire.Escape

/-!
# The form of declarations

What can be said against the declarations of a file without looking at any other file: numbers out
of bounds, labels and defaults out of place, reserved names that name nothing.  A file of bad form
is refused before its imports are read.
-/

namespace SchemaGo.Schema

abbrev Check := Except SchemaFault Unit

def ensure (condition : Bool) (fault : SchemaFault) : Check :=
  if condition then .ok () else .error fault

/-! ## Numbers and names -/

def fieldNumberLimit : Int := 536870912

def messageSetLimit : Int := 2147483647

def enumNumberLimit : Int := 2147483648

def isFieldNumber (n : Int) : Bool := 1 ≤ n && n < fieldNumberLimit

def isEnumNumber (n : Int) : Bool := -enumNumberLimit ≤ n && n < enumNumberLimit

def RangeDecl.boundsSatisfy (accepts : Int → Bool) (range : RangeDecl) : Bool :=
  accepts range.first && range.last.all accepts

def isIdentifier (name : String) : Bool :=
  match name.toList with
  | [] => false
  | c :: rest => (c.isAlpha || c == '_') && rest.all fun c => c.isAlphanum || c == '_'

/-! ## Options -/

/-- Words have no sign, and negative integers fit into 64 bits. -/
def checkOption (decl : OptionDecl) : Check :=
  match decl.value with
  | .word true text => .error (.badOption text)
  | .integer true n => ensure (n ≤ Nat.pow 2 63) (.badOption "value")
  | _ => .ok ()

def checkOptions (decls : List OptionDecl) : Check := decls.forM checkOption

def setting? (name : String) (decls : List OptionDecl) : Except SchemaFault (Option Constant) :=
  match decls.filter fun decl => decl.path == [⟨name, false⟩] with
  | [] => .ok none
  | [decl] => .ok (some decl.value)
  | _ => .error (.optionSetTwice name)

def isOwnSetting (decl : OptionDecl) : Bool :=
  decl.path == [⟨"default", false⟩] || decl.path == [⟨"json_name", false⟩]

def FieldDecl.otherOptions (decl : FieldDecl) : List OptionDecl :=
  decl.options.filter fun option => !isOwnSetting option

/-! ## Defaults -/

/-- Unlike in options, a negative zero keeps its sign and words count as numbers. -/
def defaultFloat? : Constant → Option FloatValue
  | .word negative "inf" => some (.infinite negative)
  | .word _ "nan" => some .nan
  | .integer negative n => some (FloatFormat.double.round negative n 1)
  | constant => floatOf? false constant

/-- The text of a default: numbers in decimal, bytes escaped, other texts as they are.  Only a word
can be the default of a type with a name. -/
def defaultText? (constant : Constant) : BaseDecl → Option String
  | .scalar .float | .scalar .double =>
    (defaultFloat? constant).map fun value =>
      String.ofList ((Decimal.plain .double value).toList.map Char.toLower)
  | .scalar .bytes =>
    match constant with
    | .text bytes => some (Wire.escape bytes)
    | _ => none
  | .scalar kind =>
    (scalarOf? false constant kind).map fun value =>
      match value with
      | .bool value => if value then "true" else "false"
      | .int32 value | .int64 value => toString value
      | .uint32 value | .uint64 value => toString value
      | .string value => value
      | _ => ""
  | .named _ =>
    match constant with
    | .word false text => some text
    | _ => none

def FieldDecl.defaultText (dialect : Dialect) (decl : FieldDecl) :
    Except SchemaFault (Option String) := do
  match ← setting? "default" decl.options with
  | none => return none
  | some constant =>
    ensure (dialect == .proto2 && decl.label != some .repeated) (.badDefault decl.name)
    match decl.type with
    | .base type =>
      match defaultText? constant type with
      | some text => return some text
      | none => throw (.badDefault decl.name)
    | _ => throw (.badDefault decl.name)

def jsonNameOf (name : String) : String :=
  let rec go (raise : Bool) : List Char → List Char
    | [] => []
    | c :: rest =>
      if c = '_' then go true rest
      else (if raise then c.toUpper else c) :: go false rest
  String.ofList (go false name.toList)

def FieldDecl.jsonName (decl : FieldDecl) : Except SchemaFault String := do
  match ← setting? "json_name" decl.options with
  | none => return jsonNameOf decl.name
  | some constant =>
    match textOf? constant with
    | some name => return name
    | none => throw (.badOption "json_name")

/-! ## Fields -/

def isMapKey : ScalarKind → Bool
  | .float | .double | .bytes => false
  | _ => true

def checkFieldType (dialect : Dialect) (decl : FieldDecl) : Check :=
  match decl.type with
  | .base _ => .ok ()
  | .group _ => ensure (dialect == .proto2) (.unsupportedInProto3 decl.name)
  | .map key _ _ => ensure (isMapKey key) (.badMapKey decl.name)

/-- A field needs a label in the older dialect, unless it is a map or stands in a oneof, where
labels have no place. -/
def checkLabel (dialect : Dialect) (isExtension : Bool) (decl : FieldDecl) : Check :=
  match decl.type, decl.oneof, decl.label with
  | .map .., _, label => ensure label.isNone (.badLabel decl.name)
  | _, some _, label => ensure label.isNone (.badLabel decl.name)
  | _, none, some .required =>
    if isExtension then .error (.badLabel decl.name)
    else ensure (dialect == .proto2) (.unsupportedInProto3 decl.name)
  | _, none, some _ => .ok ()
  | _, none, none => ensure (dialect == .proto3) (.badLabel decl.name)

def checkField (dialect : Dialect) (isExtension : Bool) (decl : FieldDecl) : Check := do
  ensure (isFieldNumber decl.number) (.badNumber decl.name)
  checkFieldType dialect decl
  checkLabel dialect isExtension decl
  let _ ← decl.defaultText dialect
  let _ ← decl.jsonName
  checkOptions decl.otherOptions

def checkExtend (dialect : Dialect) (decl : ExtendDecl) : Check :=
  decl.fields.forM (checkField dialect true)

/-! ## Enums, messages, services -/

def checkReservedNames (names : List String) : Check :=
  names.forM fun name => ensure (isIdentifier name) (.badName name)

def checkEnumForm (decl : EnumDecl) : Check := do
  decl.values.forM fun value => do
    ensure (isEnumNumber value.number) (.badNumber value.name)
    checkOptions value.options
  ensure (decl.reservedRanges.all fun range => range.boundsSatisfy isEnumNumber)
    (.badRange decl.name)
  checkReservedNames decl.reservedNames
  checkOptions decl.options

def checkOneofs (parts : MessageParts) : Check := do
  let used := parts.fields.filterMap (·.oneof)
  ensure ((List.range parts.oneofs.length).all fun index => index ∈ used)
    (.emptyDeclaration parts.name)
  parts.oneofs.forM fun oneof => checkOptions oneof.options

def checkPartsForm (dialect : Dialect) (parts : MessageParts) : Check := do
  if parts.isMapEntry then return
  parts.fields.forM (checkField dialect false)
  parts.extensions.forM (checkExtend dialect)
  parts.enums.forM checkEnumForm
  checkOneofs parts
  let ranges := parts.reservedRanges ++ parts.extensionRanges.map (·.range)
  ensure (ranges.all fun range => range.boundsSatisfy isFieldNumber) (.badRange parts.name)
  parts.extensionRanges.forM fun range => checkOptions range.options
  checkReservedNames parts.reservedNames
  checkOptions parts.options

mutual

def checkMessageForm (dialect : Dialect) : MessageDecl → Check
  | .mk parts nested => do
    checkPartsForm dialect parts
    checkMessageForms dialect nested
termination_by structural message => message

def checkMessageForms (dialect : Dialect) : List MessageDecl → Check
  | [] => .ok ()
  | message :: rest => do
    checkMessageForm dialect message
    checkMessageForms dialect rest
termination_by structural messages => messages

end

def checkServiceForm (decl : ServiceDecl) : Check := do
  decl.methods.forM fun method => checkOptions method.options
  checkOptions decl.options

def FileDecl.checkForm (decl : FileDecl) : Check := do
  checkMessageForms decl.actualDialect decl.messages
  decl.enums.forM checkEnumForm
  decl.extensions.forM (checkExtend decl.actualDialect)
  decl.services.forM checkServiceForm
  checkOptions decl.options

end SchemaGo.Schema
