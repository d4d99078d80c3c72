import SchemaGo.Go.Type
import SchemaGo.Schema.Basic

/-!
# Go types of fields

The Go type that a linked field gets, with everything the emitter needs to know about it.
-/

namespace SchemaGo.Lower

/-- The declared type, the undecorated types inside it, and how values are encoded.  For maps `base`
is the type of the values. -/
structure GoType where
  full : String
  base : String
  keyBase : String
  valueBase : String
  kind : FieldKind
  keyKind : Option FieldKind
  valueKind : Option FieldKind
  keyWire : Option WireKind
  valueWire : Option WireKind
deriving DecidableEq, Repr

def baseType : Schema.ElementType → String
  | .scalar kind => Go.scalarBase kind
  | .enum type => type.name
  | .message type => type.name
  | .group _ => Go.anyType

def singleKind (wire : WireKind) : FieldKind :=
  if wire = .message then .struct else .scalar

def mapType (key value : Schema.ElementType) : GoType :=
  let keyBase := baseType key
  let valueBase := baseType value
  let valueWire := Schema.Field.elementKind value
  { full := "map[" ++ keyBase ++ "]" ++ Go.decorate valueBase valueWire false false
    base := valueBase
    keyBase
    valueBase
    kind := .map
    keyKind := some .scalar
    valueKind := some (singleKind valueWire)
    keyWire := some (Schema.Field.elementKind key)
    valueWire := some valueWire }

def plainType (type : Schema.ElementType) (optional repeated : Bool) : GoType :=
  let wire := Schema.Field.elementKind type
  { full := Go.decorate (baseType type) wire optional repeated
    base := baseType type
    keyBase := ""
    valueBase := ""
    kind := if repeated then .list else singleKind wire
    keyKind := none
    valueKind := if repeated then some (singleKind wire) else none
    keyWire := none
    valueWire := if repeated then some wire else none }

def goType (field : Schema.Field) : GoType :=
  match field.type with
  | .map entry => mapType entry.key.type entry.value.type
  | .single type => plainType type field.isMarkedOptional field.isRepeated

end SchemaGo.Lower
