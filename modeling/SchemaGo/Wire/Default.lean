import SchemaGo.Number.Reading
import SchemaGo.Text.Quoted
import SchemaGo.Wire.Escape
import SchemaGo.Wire.Kind

/-!
# Default values

A default value as it is declared becomes the text that ends a tag: booleans and enum values as
numbers, floating point numbers in their general notation, bytes escaped.
-/

namespace SchemaGo.Wire

structure DefaultFault where
  value : String
  kind : String
deriving DecidableEq, Repr

def DefaultFault.message (fault : DefaultFault) : String :=
  s!"malformed default value {Text.quote fault.value} for {fault.kind}"

inductive DefaultKind where
  | scalar (kind : ScalarKind)
  | enum (values : List (String × Int))
  | message
deriving DecidableEq, Repr

/-! ## Floating point -/

/-- The general notation of a value, rounded to single precision first when `single`.  A value too
large for that is laid out as if its name were its digits. -/
def formatFloat (value : FloatValue) (single : Bool) : String :=
  match value with
  | .nan => "nan"
  | .infinite negative => Decimal.signed negative "inf".toList
  | .finite negative _ _ =>
    let format := if single then FloatFormat.single else FloatFormat.double
    match format.convert value with
    | .finite _ m q => Decimal.signed negative (Decimal.general (Decimal.shortest format m q))
    | _ => Decimal.signed negative (Decimal.general ⟨"inf".toList, 0⟩)

/-! ## All kinds -/

def formatScalar (raw : String) : ScalarKind → Except DefaultFault String
  | .bool =>
    if raw == "true" then .ok "1"
    else if raw == "false" then .ok "0"
    else .error ⟨raw, "bool"⟩
  | .int32 | .sint32 | .sfixed32 | .int64 | .sint64 | .sfixed64 =>
    match Decimal.readInt64? raw with
    | some n => .ok (toString n)
    | none => .error ⟨raw, "signed integer"⟩
  | .uint32 | .fixed32 | .uint64 | .fixed64 =>
    match Decimal.readUInt64? raw with
    | some n => .ok (toString n)
    | none => .error ⟨raw, "unsigned integer"⟩
  | .float =>
    match Decimal.readFloat? .double raw with
    | some value => .ok (formatFloat value true)
    | none => .error ⟨raw, "float"⟩
  | .double =>
    match Decimal.readFloat? .double raw with
    | some value => .ok (formatFloat value false)
    | none => .error ⟨raw, "float"⟩
  | .string => .ok raw
  | .bytes => .ok (escape (unescape raw))

def formatDefault (raw : String) : DefaultKind → Except DefaultFault String
  | .scalar kind => formatScalar raw kind
  | .enum values =>
    match values.lookup raw with
    | some number => .ok (toString number)
    | none => .error ⟨raw, "enum"⟩
  | .message => .error ⟨raw, "message"⟩

end SchemaGo.Wire
