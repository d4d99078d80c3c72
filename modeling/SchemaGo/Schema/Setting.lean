import SchemaGo.Schema.Encoding
import SchemaGo.Schema.Scope
import SchemaGo.Text.Case

/-!
# Setting options

The options written in a schema become typed values.  The name of an option leads through the
message that describes the options of an element, and through the extensions of it; the value is
read against the type found there.
-/

namespace SchemaGo.Schema

structure OptionReader where
  types : Pool
  scope : Scope

/-! ## Scalars -/

def signed (negative : Bool) (n : Nat) : Int := if negative then -(n : Int) else n

def integerIn? (low high : Int) : Constant → Option Int
  | .integer negative n =>
    if low ≤ signed negative n && signed negative n ≤ high then some (signed negative n) else none
  | _ => none

def floatWord? (negative : Bool) (text : String) : Option FloatValue :=
  let word := Text.lower text
  if word == "inf" || word == "infinity" then some (.infinite negative)
  else if word == "nan" then some .nan
  else none

/-- Words count as numbers only inside aggregates. -/
def floatOf? (inAggregate : Bool) : Constant → Option FloatValue
  | .integer negative n =>
    if n == 0 && !inAggregate then some (FloatFormat.double.round false 0 1)
    else some (FloatFormat.double.round negative n 1)
  | .float negative value => some (if negative then value.negate else value)
  | .word negative text => if inAggregate then floatWord? negative text else none
  | _ => none

def boolOf? (inAggregate : Bool) : Constant → Option Bool
  | .word false "true" => some true
  | .word false "false" => some false
  | .word false text =>
    if inAggregate && (text == "True" || text == "t") then some true
    else if inAggregate && (text == "False" || text == "f") then some false
    else none
  | .integer false n => if inAggregate && n < 2 then some (n == 1) else none
  | _ => none

def textOf? : Constant → Option String
  | .text bytes =>
    match Text.Utf8.decode bytes with
    | .ok text => some text
    | .error _ => none
  | _ => none

def scalarOf? (inAggregate : Bool) (constant : Constant) : ScalarKind → Option Value
  | .bool => (boolOf? inAggregate constant).map .bool
  | .int32 | .sint32 | .sfixed32 =>
    (integerIn? (-Int.pow 2 31) (Int.pow 2 31 - 1) constant).map .int32
  | .int64 | .sint64 | .sfixed64 =>
    (integerIn? (-Int.pow 2 63) (Int.pow 2 63 - 1) constant).map .int64
  | .uint32 | .fixed32 => (integerIn? 0 (Int.pow 2 32 - 1) constant).map fun n => .uint32 n.toNat
  | .uint64 | .fixed64 => (integerIn? 0 (Int.pow 2 64 - 1) constant).map fun n => .uint64 n.toNat
  | .float => (floatOf? inAggregate constant).map fun v => .float (Binary32.ofValue v)
  | .double => (floatOf? inAggregate constant).map fun v => .double (Binary64.ofValue v)
  | .string => (textOf? constant).map .string
  | .bytes =>
    match constant with
    | .text bytes => some (.bytes bytes)
    | _ => none

def enumOf? (inAggregate : Bool) (values : List EnumValue) : Constant → Option Value
  | .word false text =>
    (values.find? fun value => value.name == text).map fun value =>
      .enum value.number (some value.name)
  | constant =>
    if inAggregate then
      (integerIn? (-Int.pow 2 31) (Int.pow 2 31 - 1) constant).map fun n =>
        .enum n ((values.find? fun value => value.number == n).map (·.name))
    else none

def zeroScalar : ScalarKind → Value
  | .bool => .bool false
  | .int32 | .sint32 | .sfixed32 => .int32 0
  | .int64 | .sint64 | .sfixed64 => .int64 0
  | .uint32 | .fixed32 => .uint32 0
  | .uint64 | .fixed64 => .uint64 0
  | .float => .float ⟨0⟩
  | .double => .double ⟨0⟩
  | .string => .string ""
  | .bytes => .bytes []

def keyText : Value → String
  | .bool value => if value then "true" else "false"
  | .int32 value | .int64 value => toString value
  | .uint32 value | .uint64 value => toString value
  | .string value => value
  | _ => ""

/-! ## Set fields -/

abbrev SetFields := List (FieldLabel × Value)

namespace SetFields

def get? (fields : SetFields) (number : Nat) : Option Value :=
  (fields.find? fun (label, _) => label.number == number).map (·.2)

def erase (fields : SetFields) (number : Nat) : SetFields :=
  fields.filter fun (label, _) => label.number != number

def insert (label : FieldLabel) (value : Value) (fields : SetFields) : SetFields :=
  insertByKey (fun (label, _) => (label.number : Int)) (label, value) (erase fields label.number)

end SetFields

structure Slot where
  label : FieldLabel
  field : Field

def Slot.rivals (slot : Slot) (info : MessageInfo) : List Nat :=
  match slot.label.extension, slot.field.oneof with
  | none, some oneof =>
    (info.fields.filter fun field =>
      field.oneof == some oneof && field.number != slot.field.number).map (·.number)
  | _, _ => []

/-- A default in a field without presence is as good as nothing. -/
def Slot.store (slot : Slot) (types : Pool) (value : Value) (fields : SetFields) : SetFields :=
  if slot.label.extension.isNone && !slot.field.hasPresence &&
      types.isDefault slot.field.type value then fields
  else fields.insert slot.label value

def Slot.append (slot : Slot) (values : List Value) (fields : SetFields) : SetFields :=
  match fields.get? slot.label.number with
  | some (.list earlier) => fields.insert slot.label (.list (earlier ++ values))
  | _ => if values.isEmpty then fields else fields.insert slot.label (.list values)

def itemCount (slot : Slot) (fields : SetFields) : Nat :=
  match fields.get? slot.label.number with
  | some (.list items) => items.length
  | _ => 0

def Slot.addEntry (slot : Slot) (key : String) (value : Value) (fields : SetFields) : SetFields :=
  match fields.get? slot.label.number with
  | some (.map entries) => fields.insert slot.label (.map (Table.insert key value entries))
  | _ => fields.insert slot.label (.map [(key, value)])

namespace OptionReader

/-! ## Types -/

def message (reader : OptionReader) (type : TypeRef) : Except SchemaFault MessageInfo :=
  match reader.types.message? type.fullName with
  | some info => .ok info
  | none => .error (.unknownName type.fullName)

def enumValues (reader : OptionReader) (type : TypeRef) : List EnumValue :=
  ((reader.types.enum? type.fullName).map (·.values)).getD []

def zeroOf (reader : OptionReader) : ElementType → Value
  | .scalar kind => zeroScalar kind
  | .enum type =>
    match reader.enumValues type with
    | first :: _ => .enum first.number (some first.name)
    | [] => .enum 0 none
  | .message _ | .group _ => .message []

/-! ## Slots -/

def fieldSlot (info : MessageInfo) (accepts : Field → Bool) (name : String) :
    Except SchemaFault Slot :=
  match info.fields.find? accepts with
  | some field => .ok ⟨⟨field.number, field.name, none⟩, field⟩
  | none => .error (.badOption name)

def aggregateName (field : Field) : String :=
  match field.type with
  | .single (.group type) => type.name
  | _ => field.name

def extensionSlot (reader : OptionReader) (info : MessageInfo) (fullName : String) :
    Except SchemaFault Slot :=
  match reader.types.extension? fullName with
  | some (type, extension) =>
    if extension.extendee.fullName == info.fullName then
      .ok ⟨⟨extension.field.number, extension.field.name, some type⟩, extension.field⟩
    else .error (.badOption fullName)
  | none => .error (.badOption fullName)

def keySlot (reader : OptionReader) (info : MessageInfo) : FieldKey → Except SchemaFault Slot
  | .name name => fieldSlot info (fun field => aggregateName field == name) name
  | .extension name => reader.extensionSlot info name
  | .address domain type => .error (.badOption (domain ++ "/" ++ type))

def partSlot (reader : OptionReader) (around : String) (info : MessageInfo) (part : OptionPart) :
    Except SchemaFault Slot :=
  if part.isExtension then
    match reader.scope.resolve? (· == .extension) around part.name with
    | some (fullName, _) => reader.extensionSlot info fullName
    | none => .error (.unknownName part.name)
  else fieldSlot info (fun field => field.name == part.name) part.name

/-! ## Aggregates -/

def scalarElement (reader : OptionReader) (inAggregate : Bool) (type : ElementType)
    (constant : Constant) : Except SchemaFault Value :=
  let value := match type with
    | .scalar kind => scalarOf? inAggregate constant kind
    | .enum type => enumOf? inAggregate (reader.enumValues type) constant
    | .message _ | .group _ => none
  match value with
  | some value => .ok value
  | none => .error (.badOption "value")

def entryOf (reader : OptionReader) (entry : MapEntry) (fields : SetFields) : String × Value :=
  (keyText ((fields.get? 1).getD (reader.zeroOf entry.key.type)),
    (fields.get? 2).getD (reader.zeroOf entry.value.type))

/-- A field that holds one value can be set once, and only one field of a oneof. -/
def checkUnset (info : MessageInfo) (slot : Slot) (fields : SetFields) :
    Except SchemaFault Unit :=
  let set := fun number => (fields.get? number).isSome
  if set slot.label.number || (slot.rivals info).any set then
    .error (.optionSetTwice slot.label.name)
  else .ok ()

def setOnce (reader : OptionReader) (info : MessageInfo) (slot : Slot) (value : Value)
    (fields : SetFields) : Except SchemaFault SetFields := do
  checkUnset info slot fields
  .ok (slot.store reader.types value fields)

def anyMessage : String := "google.protobuf.Any"

def setAny (reader : OptionReader) (info : MessageInfo) (address : String) (bytes : Bytes)
    (fields : SetFields) : Except SchemaFault SetFields := do
  let addressSlot ← fieldSlot info (fun field => field.number == 1) address
  let bytesSlot ← fieldSlot info (fun field => field.number == 2) address
  let fields ← reader.setOnce info addressSlot (.string address) fields
  reader.setOnce info bytesSlot (.bytes bytes) fields

def addressed (reader : OptionReader) (holder : MessageInfo) (type : String) :
    Except SchemaFault ElementType :=
  if holder.fullName != anyMessage then .error (.wrongKind holder.fullName)
  else
    match reader.types.message? type with
    | some info => .ok (.message ⟨info.name, info.fullName, ""⟩)
    | none => .error (.unknownName type)

mutual

def element (reader : OptionReader) (type : ElementType) : Constant → Except SchemaFault Value
  | .aggregate fields =>
    match type with
    | .message type | .group type => do
      let info ← reader.message type
      .ok (.message (← reader.aggregate info [] fields))
    | _ => .error (.badOption "value")
  | constant => reader.scalarElement true type constant
termination_by structural constant => constant

def elements (reader : OptionReader) (type : ElementType) :
    List Constant → Except SchemaFault (List Value)
  | [] => .ok []
  | constant :: rest => do
    let value ← reader.element type constant
    .ok (value :: (← reader.elements type rest))
termination_by structural constants => constants

def aggregate (reader : OptionReader) (info : MessageInfo) (done : SetFields) :
    List (FieldKey × Constant) → Except SchemaFault SetFields
  | [] => .ok done
  | (key, .list items) :: rest => do
    let slot ← reader.keySlot info key
    match slot.field.type with
    | .single type =>
      if slot.field.isRepeated then
        reader.aggregate info (slot.append (← reader.elements type items) done) rest
      else .error (.badOption slot.label.name)
    | .map entry => do
      let values ← reader.elements entry.element items
      let done := values.foldl (fun done value =>
        match value with
        | .message fields =>
          let (key, value) := reader.entryOf entry fields
          slot.addEntry key value done
        | _ => done) done
      reader.aggregate info done rest
  | (.address domain type, constant) :: rest => do
    let type' ← reader.addressed info type
    let value ← reader.element type' constant
    let done ← reader.setAny info (domain ++ "/" ++ type) (reader.types.encode type' value) done
    reader.aggregate info done rest
  | (key, constant) :: rest => do
    let slot ← reader.keySlot info key
    match slot.field.type with
    | .single type =>
      let value ← reader.element type constant
      if slot.field.isRepeated then reader.aggregate info (slot.append [value] done) rest
      else reader.aggregate info (← reader.setOnce info slot value done) rest
    | .map entry =>
      match ← reader.element entry.element constant with
      | .message fields =>
        let (key, value) := reader.entryOf entry fields
        reader.aggregate info (slot.addEntry key value done) rest
      | _ => .error (.badOption slot.label.name)
termination_by structural fields => fields

end

/-! ## Settings -/

def wholeValue (reader : OptionReader) (type : ElementType) (constant : Constant) :
    Except SchemaFault Value :=
  match constant with
  | .aggregate _ => reader.element type constant
  | constant => reader.scalarElement false type constant

/-- Sets a field to a value.  The path says where: repeated options are counted. -/
def setLast (reader : OptionReader) (info : MessageInfo) (slot : Slot) (fields : SetFields)
    (constant : Constant) : Except SchemaFault (SetFields × SourcePath) :=
  match slot.field.type with
  | .single type => do
    let value ← reader.wholeValue type constant
    if slot.field.isRepeated then
      .ok (slot.append [value] fields, [slot.label.number, itemCount slot fields])
    else if (fields.get? slot.label.number).isSome then .error (.optionSetTwice slot.label.name)
    else
      let fields := (slot.rivals info).foldl SetFields.erase fields
      .ok (slot.store reader.types value fields, [slot.label.number])
  | .map entry => do
    match ← reader.wholeValue entry.element constant with
    | .message entryFields =>
      let (key, value) := reader.entryOf entry entryFields
      .ok (slot.addEntry key value fields, [slot.label.number])
    | _ => .error (.badOption slot.label.name)

def setPath (reader : OptionReader) (around : String) (constant : Constant) :
    List OptionPart → MessageInfo → SetFields → Except SchemaFault (SetFields × SourcePath)
  | [], _, _ => .error (.badOption "")
  | [part], info, fields => do
    reader.setLast info (← reader.partSlot around info part) fields constant
  | part :: rest, info, fields => do
    let slot ← reader.partSlot around info part
    match slot.field.type, slot.field.isRepeated with
    | .single (.message type), false | .single (.group type), false => do
      let inner ← reader.message type
      let earlier := match fields.get? slot.label.number with
        | some (.message earlier) => earlier
        | _ => []
      let (set, path) ← reader.setPath around constant rest inner earlier
      let fields := (slot.rivals info).foldl SetFields.erase fields
      .ok (fields.insert slot.label (.message set), (slot.label.number : Int) :: path)
    | _, _ => .error (.badOption part.name)

def setAll (reader : OptionReader) (around : String) (info : MessageInfo) :
    SetFields → List Remark → List OptionDecl → Except SchemaFault (SetFields × List Remark)
  | fields, remarks, [] => .ok (fields, remarks.reverse)
  | fields, remarks, decl :: rest => do
    let (fields, path) ← reader.setPath around decl.value decl.path info fields
    let remarks := match decl.comment with
      | some text => ⟨path, text⟩ :: remarks
      | none => remarks
    reader.setAll around info fields remarks rest

def unreadNumber : Nat := 999

def read (reader : OptionReader) (target : MetaType) (around : String) (decls : List OptionDecl) :
    Except SchemaFault (Option OptionSet × List Remark) :=
  if decls.isEmpty then .ok (none, [])
  else do
    let name := "google.protobuf." ++ target.name
    match reader.types.message? name with
    | none => .error (.unknownName name)
    | some info =>
      let (fields, remarks) ← reader.setAll around info [] [] decls
      let marks := info.fields.any fun field => field.number == unreadNumber
      .ok (some ⟨fields.erase unreadNumber, if marks then [] else decls⟩, remarks)

end OptionReader

end SchemaGo.Schema
