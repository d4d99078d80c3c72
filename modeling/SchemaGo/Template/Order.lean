import SchemaGo.Number.Arithmetic
import SchemaGo.Template.Value

/-!
# Equality and order of values

Numbers are compared exactly, whole or not, and truth values are equal to the numbers one and zero.
Values of different kinds are never the same in order, even when they are equal.
-/

namespace SchemaGo.Template.Value

/-! ## Numbers -/

def number? : Value → Option FloatValue
  | .bool value => some (.finite false value.toNat 0)
  | .int value => some (.finite (value < 0) value.natAbs 0)
  | .float value => some value.value
  | _ => none

def areEqualNumbers (left right : Value) : Bool :=
  match left.number?, right.number? with
  | some x, some y => FloatValue.compare? x y == some .eq
  | _, _ => false

def compareNumbers (left right : Value) : Ordering :=
  match left, right with
  | .int x, .int y => compare x y
  | left, right =>
    match left.number?, right.number? with
    | some x, some y => FloatValue.totalOrder x y
    | _, _ => .eq

def compareTexts (left right : String) : Ordering :=
  if left < right then .lt else if left = right then .eq else .gt

/-! ## Equality -/

mutual

def areEqual : Value → Value → Bool
  | .undefined, right => right.kind == .undefined
  | .null, right => right.kind == .null
  | .text left _, right => right.text? == some left
  | .list left, right => areEqualItems left right.kind right.parts?
  | .stream left _, right => areEqualItems left right.kind right.parts?
  | .group key items, right =>
    match right.kind, right.parts? with
    | .sequence, some [other, others] | .iterable, some [other, others] =>
      areEqual key other && areEqualItems items others.kind others.parts?
    | _, _ => false
  | .map left, right =>
    match right.entries? with
    | some others => left.length == others.length && areEqualEntries left others
    | none => false
  | .keywords left, right =>
    match right.entries? with
    | some others => left.length == others.length && areEqualKeywords left others
    | none => false
  | .bool left, right => areEqualNumbers (.bool left) right
  | .int left, right => areEqualNumbers (.int left) right
  | .float left, right => areEqualNumbers (.float left) right
  | .loop left _ _, .loop right _ _ => left == right
  | .space left, .space right => left == right
  | .procedure left _ _ _ leftVariables, .procedure right _ _ _ rightVariables =>
    left == right && leftVariables == rightVariables
  | .function left, .function right => left == right
  | _, _ => false
termination_by structural left => left

def areEqualItems : List Value → Kind → Option (List Value) → Bool
  | [], kind, right =>
    match kind, right with
    | .sequence, some [] | .iterable, some [] => true
    | _, _ => false
  | item :: rest, kind, right =>
    match kind, right with
    | .sequence, some (other :: others) | .iterable, some (other :: others) =>
      areEqual item other && areEqualItems rest kind (some others)
    | _, _ => false
termination_by structural left => left

def areEqualEntries : List (Value × Value) → List (Value × Value) → Bool
  | [], _ => true
  | (key, value) :: rest, others =>
    (match others.find? fun (other, _) => areEqual key other with
      | some (_, found) => areEqual value found
      | none => false) && areEqualEntries rest others
termination_by structural left => left

def areEqualKeywords : List (String × Value) → List (Value × Value) → Bool
  | [], _ => true
  | (key, value) :: rest, others =>
    (match others.find? fun (other, _) => other.text? == some key with
      | some (_, found) => areEqual value found
      | none => false) && areEqualKeywords rest others
termination_by structural left => left

end

/-! ## Order -/

mutual

/-- Items are compared one after the other, and so are the entries of maps. -/
def order : Value → Value → Ordering
  | .text left _, .text right _ => compareTexts left right
  | .list left, right => (compare Kind.sequence.rank right.kind.rank).then
      (orderItems left (right.parts?.getD []))
  | .stream left _, right => (compare Kind.iterable.rank right.kind.rank).then
      (orderItems left (right.parts?.getD []))
  | .group key items, right => (compare Kind.sequence.rank right.kind.rank).then
      (match right.parts?.getD [] with
        | [] => .gt
        | [other] => (order key other).then .gt
        | other :: others :: _ => (order key other).then
            (orderItems items (others.parts?.getD [])))
  | .map left, right => (compare Kind.map.rank right.kind.rank).then
      (orderEntries left (right.entries?.getD []))
  | .bool left, .bool right => compare left.toNat right.toNat
  | .int left, .int right => compareNumbers (.int left) (.int right)
  | .int left, .float right => compareNumbers (.int left) (.float right)
  | .float left, .int right => compareNumbers (.float left) (.int right)
  | .float left, .float right => compareNumbers (.float left) (.float right)
  | left, right =>
    (compare left.kind.rank right.kind.rank).then
      (if left.kind == .plain then compareTexts left.inspectPlain right.inspectPlain else .eq)
termination_by structural left => left

def orderItems : List Value → List Value → Ordering
  | [], [] => .eq
  | [], _ :: _ => .lt
  | _ :: _, [] => .gt
  | left :: lefts, right :: rights => (order left right).then (orderItems lefts rights)
termination_by structural left => left

def orderEntries : List (Value × Value) → List (Value × Value) → Ordering
  | [], [] => .eq
  | [], _ :: _ => .lt
  | _ :: _, [] => .gt
  | (key, value) :: lefts, (other, otherValue) :: rights =>
    ((order key other).then (order value otherValue)).then (orderEntries lefts rights)
termination_by structural left => left

end

def orderBy (exactCase : Bool) (left right : Value) : Ordering :=
  match exactCase, left, right with
  | false, .text left _, .text right _ =>
    compareTexts (String.ofList (left.toList.map Char.toLower))
      (String.ofList (right.toList.map Char.toLower))
  | _, left, right => order left right

def sortBy {α : Type} (order : α → α → Ordering) (items : List α) : List α :=
  items.mergeSort fun left right => order left right != .gt

/-! ## Entries -/

def insertEntry (key value : Value) : List (Value × Value) → List (Value × Value)
  | [] => [(key, value)]
  | (other, old) :: rest =>
    if areEqual key other then (other, value) :: rest
    else (other, old) :: insertEntry key value rest

def valueAt? (key : Value) (entries : List (Value × Value)) : Option Value :=
  (entries.find? fun (other, _) => areEqual key other).map (·.2)

end SchemaGo.Template.Value
