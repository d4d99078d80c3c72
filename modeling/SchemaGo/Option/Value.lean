import SchemaGo.Number.Binary
import SchemaGo.Table
import SchemaGo.Text.Utf8

/-!
# Option values

The value of a custom option as templates see it: scalars, lists, and maps keyed by capitalised
field names.
-/

namespace SchemaGo

/-- A literal is source text that is emitted as it is. -/
inductive Scalar where
  | bool (value : Bool)
  | int (value : Int)
  | uint (value : Nat)
  | float (value : Binary64)
  | string (value : String)
  | bytes (value : Bytes)
  | literal (text : String)
deriving DecidableEq, Repr

inductive ScalarType where
  | bool
  | int
  | uint
  | float
  | string
  | bytes
  | literal
deriving DecidableEq, Repr

namespace ScalarType

def name : ScalarType → String
  | .bool => "bool"
  | .int => "int64"
  | .uint => "uint64"
  | .float => "float64"
  | .string => "string"
  | .bytes => "[]byte"
  | .literal => "literal"

def all : List ScalarType := [.bool, .int, .uint, .float, .string, .bytes, .literal]

def ofName (name : String) : ScalarType :=
  (all.find? fun type => type.name == name).getD .string

def zero : ScalarType → Scalar
  | .bool => .bool false
  | .int => .int 0
  | .uint => .uint 0
  | .float => .float ⟨0⟩
  | .string => .string ""
  | .bytes => .bytes []
  | .literal => .literal "nil"

end ScalarType

def Scalar.type : Scalar → ScalarType
  | .bool _ => .bool
  | .int _ => .int
  | .uint _ => .uint
  | .float _ => .float
  | .string _ => .string
  | .bytes _ => .bytes
  | .literal _ => .literal

inductive OptionValue where
  | scalar (value : Scalar)
  | list (items : List OptionValue)
  | map (entries : List (String × OptionValue))
deriving BEq, Repr

abbrev OptionMap := Table OptionValue

namespace OptionValue

def isScalar : OptionValue → Bool
  | .scalar _ => true
  | _ => false

def isList : OptionValue → Bool
  | .list _ => true
  | _ => false

def isMap : OptionValue → Bool
  | .map _ => true
  | _ => false

end OptionValue

/-! ## Values before unwrapping -/

/-- The value of an option as it was linked; fields of messages keep their numbers. -/
inductive RawValue where
  | scalar (value : Scalar)
  | list (items : List RawValue)
  | message (fields : List (Nat × String × RawValue))
  | map (entries : List (String × RawValue))
deriving BEq, Repr

end SchemaGo
