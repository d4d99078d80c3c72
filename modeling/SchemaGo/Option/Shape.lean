import SchemaGo.Option.Value

/-!
# Option shapes

The shape of an option value forgets the scalars and keeps their types.  Shapes merge, and a shape
fills a value with zeros where it lacks keys.
-/

namespace SchemaGo

/-- The item shape of an empty list is unknown. -/
inductive OptionShape where
  | leaf (type : ScalarType)
  | list (item : OptionShape)
  | map (entries : List (String × OptionShape))
  | unknown
deriving BEq, Repr

namespace OptionShape

/-! ## Merging -/

mutual

/-- The union of two shapes.  Where they conflict the first one stays. -/
def merge : OptionShape → OptionShape → OptionShape
  | .unknown, other => other
  | .leaf type, _ => .leaf type
  | .list item, .list other => .list (merge item other)
  | .list item, _ => .list item
  | .map entries, .map others =>
    .map (Table.addMissing others (mergeEntries entries others))
  | .map entries, _ => .map entries
termination_by structural shape => shape

def mergeEntries : List (String × OptionShape) → List (String × OptionShape) →
    List (String × OptionShape)
  | [], _ => []
  | (key, shape) :: rest, others =>
    (key, match Table.get? others key with
      | some other => merge shape other
      | none => shape) :: mergeEntries rest others
termination_by structural entries => entries

end

def mergeTables (left right : Table OptionShape) : Table OptionShape :=
  Table.addMissing right (mergeEntries left right)

/-! ## The shape of a value -/

mutual

def ofValue : OptionValue → OptionShape
  | .scalar scalar => .leaf scalar.type
  | .list items => .list (ofItems .unknown items)
  | .map entries => .map (ofEntries entries)
termination_by structural value => value

def ofItems (known : OptionShape) : List OptionValue → OptionShape
  | [] => known
  | item :: rest => ofItems (merge known (ofValue item)) rest
termination_by structural items => items

def ofEntries : List (String × OptionValue) → List (String × OptionShape)
  | [] => []
  | (key, value) :: rest => (key, ofValue value) :: ofEntries rest
termination_by structural entries => entries

end

/-! ## Values of a shape -/

mutual

def describe : OptionShape → OptionValue
  | .leaf type => .scalar (.string type.name)
  | .list .unknown => .list []
  | .list item => .list [describe item]
  | .map entries => .map (describeEntries entries)
  | .unknown => .map []
termination_by structural shape => shape

def describeEntries : List (String × OptionShape) → List (String × OptionValue)
  | [] => []
  | (key, shape) :: rest => (key, describe shape) :: describeEntries rest
termination_by structural entries => entries

end

mutual

def zero : OptionShape → OptionValue
  | .leaf type => .scalar type.zero
  | .list _ => .list []
  | .map entries => .map (zeroEntries entries)
  | .unknown => .map []
termination_by structural shape => shape

def zeroEntries : List (String × OptionShape) → List (String × OptionValue)
  | [] => []
  | (key, shape) :: rest => (key, zero shape) :: zeroEntries rest
termination_by structural entries => entries

end

/-! ## Filling -/

mutual

def fill : OptionShape → OptionValue → OptionValue
  | .map shapes, .map entries => .map (fillEntries shapes entries)
  | .list item, .list items => .list (items.map (fill item))
  | _, value => value
termination_by structural shape => shape

def fillEntries : List (String × OptionShape) → List (String × OptionValue) →
    List (String × OptionValue)
  | [], entries => entries
  | (key, shape) :: rest, entries =>
    fillEntries rest (Table.insert key (match Table.get? entries key with
      | some value => fill shape value
      | none => zero shape) entries)
termination_by structural shapes => shapes

end

end OptionShape

end SchemaGo
