import SchemaGo.Text.Split
import SchemaGo.Wire.Kind

/-!
# Wire tags

A tag is a list of tokens joined by commas, in a fixed order: encoding class, number, cardinality,
`packed`, `name=`, `json=`, `proto3`, `enum=`, `oneof` and `def=`.  Commas in the default are not
escaped, so it has to come last.
-/

namespace SchemaGo

inductive Cardinality where
  | optional
  | required
  | repeated
deriving DecidableEq, Repr

def Cardinality.token : Cardinality → String
  | .optional => "opt"
  | .required => "req"
  | .repeated => "rep"

structure WireField where
  kind : WireKind
  number : Nat
  cardinality : Cardinality
  packed : Bool
  name : String
  jsonName : String
  proto3 : Bool
  extension : Bool
  enumName : Option String
  oneof : Bool
  default : Option String
deriving DecidableEq, Repr

namespace WireField

def showsJsonName (field : WireField) : Bool :=
  !field.jsonName.isEmpty && field.jsonName != field.name && !field.extension

def marksProto3 (field : WireField) (skipProto3 : Bool) : Bool :=
  !skipProto3 && field.proto3 && !field.extension

def tokens (field : WireField) (skipProto3 : Bool) : List String :=
  [field.kind.wireClass.name, toString field.number, field.cardinality.token] ++
    (if field.packed then ["packed"] else []) ++
    ["name=" ++ field.name] ++
    (if field.showsJsonName then ["json=" ++ field.jsonName] else []) ++
    (if field.marksProto3 skipProto3 then ["proto3"] else []) ++
    (match field.enumName with
      | some enumName => ["enum=" ++ enumName]
      | none => []) ++
    (if field.oneof then ["oneof"] else []) ++
    (match field.default with
      | some default => ["def=" ++ default]
      | none => [])

/-- The tag.  Tags of map keys and values skip the `proto3` marker. -/
def tag (field : WireField) (skipProto3 : Bool) : String :=
  Text.joinWith "," (field.tokens skipProto3)

end WireField

end SchemaGo
