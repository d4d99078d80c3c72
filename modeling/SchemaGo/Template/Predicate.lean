import SchemaGo.Template.Arguments
import SchemaGo.Text.Words

/-!
# Tests

What can be asked about a value with `is`.
-/

namespace SchemaGo.Template

def filterNames : List String :=
  ["abs", "attr", "batch", "bool", "capitalize", "chain", "count", "d", "default", "dictsort", "e",
    "escape", "first", "float", "groupby", "indent", "int", "items", "join", "last", "length",
    "lines", "list", "lower", "map", "max", "min", "pprint", "reject", "rejectattr", "replace",
    "reverse", "round", "safe", "select", "selectattr", "slice", "sort", "split", "string", "sum",
    "title", "trim", "unique", "upper", "zip"]

def plainTestNames : List String :=
  ["boolean", "defined", "escaped", "even", "false", "filter", "float", "int", "integer",
    "iterable", "lower", "mapping", "none", "number", "odd", "safe", "sequence", "string", "test",
    "true", "undefined", "upper"]

def binaryTestNames : List String :=
  ["!=", "<", "<=", "==", ">", ">=", "divisibleby", "endingwith", "eq", "equalto", "ge",
    "greaterthan", "gt", "in", "le", "lessthan", "lt", "ne", "sameas", "startingwith"]

def isTestName (name : String) : Bool :=
  plainTestNames.contains name || binaryTestNames.contains name

namespace Value

def isInt : Value → Bool
  | .int _ => true
  | _ => false

/-- Whether nothing tells two values apart.  Objects have to be one, and a whole number is not the
same with a point. -/
def isSame (shared : Bool) (left right : Value) : Bool :=
  if left.isObject then shared && canBeOne left right
  else left.kind == right.kind && left.isInt == right.isInt && areEqual left right

def exactFloat? (value : Value) : Option FloatValue :=
  value.float?.filter fun x => areEqualNumbers value (ofFloat x)

def isDivisible (left right : Value) : Bool :=
  if left.isFloat || right.isFloat then
    match left.exactFloat?, right.exactFloat? with
    | some x, some y => (FloatValue.remainder x y).isZero
    | _, _ => false
  else
    match left.int?, right.int? with
    | some m, some n => n != 0 && m % n == 0
    | _, _ => false

/-! ## One value -/

def plainTest (name : String) (value : Value) : Except Fault Bool :=
  match name with
  | "defined" => .ok !value.isUndefined
  | "undefined" => .ok value.isUndefined
  | "none" => .ok (value.kind == .null)
  | "boolean" => .ok (value.kind == .bool)
  | "true" => .ok (value.kind == .bool && value.isTrue)
  | "false" => .ok (value.kind == .bool && !value.isTrue)
  | "number" => .ok (value.kind == .number)
  | "integer" | "int" => .ok value.isInt
  | "float" => .ok value.isFloat
  | "odd" => .ok (value.int?.any fun n => n % 2 != 0)
  | "even" => .ok (value.int?.any fun n => n % 2 == 0)
  | "string" => .ok (value.kind == .text)
  | "sequence" => .ok (value.kind == .sequence)
  | "mapping" => .ok (value.kind == .map)
  | "iterable" => .ok value.items?.isSome
  | "safe" | "escaped" => .ok value.isSafe
  | "lower" => return (← Arguments.string value).toList.all Text.isSmall
  | "upper" => return (← Arguments.string value).toList.all Text.isCapital
  | "filter" => return filterNames.contains (← Arguments.string value)
  | "test" => return isTestName (← Arguments.string value)
  | name => .error (.unknownTest name)

/-! ## Two values -/

def comparisonNamed? : String → Option Comparison
  | "eq" | "equalto" | "==" => some .equal
  | "ne" | "!=" => some .unequal
  | "lt" | "lessthan" | "<" => some .less
  | "le" | "<=" => some .atMost
  | "gt" | "greaterthan" | ">" => some .greater
  | "ge" | ">=" => some .atLeast
  | _ => none

def isIn (shared : Bool) (value container : Value) : Bool :=
  match contains shared container value with
  | .ok found => found
  | .error _ => false

def binaryTest (name : String) (shared : Bool) (left right : Value) : Except Fault Bool :=
  match name with
  | "divisibleby" => .ok (isDivisible left right)
  | "sameas" => .ok (isSame shared left right)
  | "in" => .ok (isIn shared left right)
  | "startingwith" => do
    let part ← Arguments.text right
    return part.toList.isPrefixOf (← Arguments.text left).toList
  | "endingwith" => do
    let part ← Arguments.text right
    return part.toList.isSuffixOf (← Arguments.text left).toList
  | name =>
    match comparisonNamed? name with
    | some comparison => compareWith comparison shared left right
    | none => .error (.unknownTest name)

/-- Values that are not `shared` have been made apart. -/
def applyTest (name : String) (shared : Bool) (subject : Value) (arguments : List Value) :
    Except Fault Bool :=
  match arguments with
  | [] => if binaryTestNames.contains name then .error .missingArgument else plainTest name subject
  | [other] =>
    if plainTestNames.contains name then .error .tooManyArguments
    else binaryTest name shared subject other
  | _ => if isTestName name then .error .tooManyArguments else .error (.unknownTest name)

end Value

end SchemaGo.Template
