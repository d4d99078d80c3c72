import SchemaGo.Comment.SourcePath
import SchemaGo.Number.Binary
import SchemaGo.Text.Utf8
import SchemaGo.Wire.Tag

/-!
# Declarations

What a schema source declares, before any name in it is looked up.  Every declaration keeps the
comment that leads it.
-/

namespace SchemaGo.Schema

inductive Dialect where
  | proto2
  | proto3
deriving DecidableEq, Repr

/-! ## Options -/

structure OptionPart where
  name : String
  isExtension : Bool
deriving DecidableEq, Repr

/-- How a field of an aggregate is named: plainly, by an extension in brackets, or by the address of
a message type in brackets.  An address stands for the two fields of a message that holds messages
of any type. -/
inductive FieldKey where
  | name (name : String)
  | extension (name : String)
  | address (domain type : String)
deriving DecidableEq, Repr

/-- A value as it is written; `malformed` is an aggregate whose braces match and that cannot be read
otherwise. -/
inductive Constant where
  | word (negative : Bool) (text : String)
  | integer (negative : Bool) (value : Nat)
  | float (negative : Bool) (value : FloatValue)
  | text (bytes : Bytes)
  | list (items : List Constant)
  | aggregate (fields : List (FieldKey × Constant))
  | malformed
deriving BEq, Repr

structure OptionDecl where
  path : List OptionPart
  value : Constant
  comment : Option String
deriving BEq, Repr

/-! ## Fields -/

inductive BaseDecl where
  | scalar (kind : ScalarKind)
  | named (name : String)
deriving DecidableEq, Repr

inductive TypeDecl where
  | base (type : BaseDecl)
  | group (name : String)
  | map (key : ScalarKind) (value : BaseDecl) (entry : String)
deriving DecidableEq, Repr

structure FieldDecl where
  label : Option Cardinality
  type : TypeDecl
  name : String
  number : Nat
  options : List OptionDecl
  oneof : Option Nat
  comment : Option String
deriving BEq, Repr

structure OneofDecl where
  name : String
  options : List OptionDecl
  comment : Option String
deriving BEq, Repr

structure ExtendDecl where
  extendee : String
  fields : List FieldDecl
  comment : Option String
deriving BEq, Repr

structure RangeDecl where
  first : Int
  last : Option Int
deriving DecidableEq, Repr

structure NumberRange where
  first : Int
  stop : Int
deriving DecidableEq, Repr

def NumberRange.contains (range : NumberRange) (n : Int) : Bool :=
  range.first ≤ n && n < range.stop

def RangeDecl.toRange (limit : Int) (decl : RangeDecl) : NumberRange :=
  ⟨decl.first, (decl.last.map (· + 1)).getD limit⟩

structure ExtensionRangeDecl where
  range : RangeDecl
  options : List OptionDecl
deriving BEq, Repr

/-! ## Enums, messages, services -/

structure EnumValueDecl where
  name : String
  number : Int
  options : List OptionDecl
  comment : Option String
deriving BEq, Repr

/-- A comment on something that is no declaration of its own, by its path from the declaration
around it. -/
structure Remark where
  path : SourcePath
  text : String
deriving DecidableEq, Repr

structure EnumDecl where
  name : String
  values : List EnumValueDecl
  reservedRanges : List RangeDecl
  reservedNames : List String
  options : List OptionDecl
  comment : Option String
  remarks : List Remark
deriving BEq, Repr

structure MessageParts where
  name : String
  fields : List FieldDecl
  enums : List EnumDecl
  extensions : List ExtendDecl
  oneofs : List OneofDecl
  extensionRanges : List ExtensionRangeDecl
  reservedRanges : List RangeDecl
  reservedNames : List String
  options : List OptionDecl
  isMapEntry : Bool
  comment : Option String
  remarks : List Remark
deriving BEq, Repr

def MessageParts.empty (name : String) : MessageParts :=
  { name, fields := [], enums := [], extensions := [], oneofs := [], extensionRanges := []
    reservedRanges := [], reservedNames := [], options := [], isMapEntry := false, comment := none
    remarks := [] }

/-- The messages nested in a message include the entries of its maps and the messages of its groups,
each at the place of its field. -/
inductive MessageDecl where
  | mk (parts : MessageParts) (nested : List MessageDecl)
deriving BEq, Repr

def MessageDecl.parts : MessageDecl → MessageParts
  | .mk parts _ => parts

def MessageDecl.nested : MessageDecl → List MessageDecl
  | .mk _ nested => nested

structure MethodDecl where
  name : String
  input : String
  output : String
  clientStreaming : Bool
  serverStreaming : Bool
  options : List OptionDecl
  comment : Option String
deriving BEq, Repr

structure ServiceDecl where
  name : String
  methods : List MethodDecl
  options : List OptionDecl
  comment : Option String
deriving BEq, Repr

/-! ## Files -/

inductive ImportKind where
  | plain
  | forward
  | weak
deriving DecidableEq, Repr

structure ImportDecl where
  name : String
  kind : ImportKind
  comment : Option String
deriving DecidableEq, Repr

structure FileDecl where
  dialect : Option Dialect
  package : Option String
  imports : List ImportDecl
  messages : List MessageDecl
  enums : List EnumDecl
  services : List ServiceDecl
  extensions : List ExtendDecl
  options : List OptionDecl
  remarks : List Remark
deriving BEq, Repr

def FileDecl.empty : FileDecl :=
  { dialect := none, package := none, imports := [], messages := [], enums := [], services := []
    extensions := [], options := [], remarks := [] }

end SchemaGo.Schema
