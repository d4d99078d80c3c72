import SchemaGo.Number.Reading
import SchemaGo.Template.Collection
import SchemaGo.Template.Predicate

/-!
# Filters

What can be made of a value with `|`.  The filters come in families, by what they are made for; a
name that no family knows is an error.
-/

namespace SchemaGo.Template.Value

open Arguments (required optional atMost keyword flagOf onlyKnown splitKeywords)

abbrev Filtering := String → Value → List Value → Except Fault Value

/-! ## Texts -/

def ofCharLists (pieces : List (List Char)) : List Value :=
  pieces.map fun piece => ofText (String.ofList piece)

def mapText (f : String → String) (subject : Value) (arguments : List Value) :
    Except Fault Value := do
  atMost 0 arguments
  return .ofText (f (← Arguments.text subject))

def splitText (subject : Value) (arguments : List Value) : Except Fault Value := do
  atMost 2 arguments
  let cs := (← Arguments.text subject).toList
  let sep ← optional Arguments.text arguments[0]?
  let cuts := (← optional (Arguments.int 64) arguments[1]?).bind fun n =>
    if 0 ≤ n then some n.toNat else none
  let pieces := match sep with
    | some sep => Text.pieces sep.toList cuts cs
    | none => Text.words (cuts.map (· + 1)) cs
  return .stream (ofCharLists pieces) false

def joinItems (joiner : String) (items : List Value) : String :=
  items.foldl (fun text item =>
    (if text.isEmpty then text else text ++ joiner) ++ item.display) ""

def textFilter (next : Filtering) : Filtering := fun name subject arguments =>
  match name with
  | "safe" => do
    atMost 0 arguments
    return .text (← Arguments.text subject) true
  | "escape" | "e" => do
    atMost 0 arguments
    return if subject.isSafe then subject else .text subject.escaped true
  | "string" => do
    atMost 0 arguments
    return if subject.kind == .text then subject else .ofText subject.display
  | "pprint" => do
    atMost 0 arguments
    return .ofText subject.pretty
  | "lower" => mapText Text.lower subject arguments
  | "upper" => mapText Text.upper subject arguments
  | "title" => mapText Text.titleCase subject arguments
  | "capitalize" => mapText Text.capitalize subject arguments
  | "replace" => do
    atMost 2 arguments
    let old ← required Arguments.text arguments[0]?
    let new ← required Arguments.text arguments[1]?
    mapText (fun s => String.ofList (Text.replaceAll old.toList new.toList s.toList)) subject []
  | "trim" => do
    atMost 1 arguments
    match ← optional Arguments.text arguments[0]? with
    | some chars =>
      mapText (fun s => String.ofList (Text.trimChars chars.toList s.toList)) subject []
    | none => mapText (fun s => String.ofList (Text.trim s.toList)) subject []
  | "indent" => do
    atMost 3 arguments
    let width ← required Arguments.count arguments[0]?
    let first := (← optional Arguments.flag arguments[1]?).getD false
    let blanks := (← optional Arguments.flag arguments[2]?).getD false
    mapText (fun s => String.ofList (Text.indent width first blanks s.toList)) subject []
  | "split" => splitText subject arguments
  | "lines" => do
    atMost 0 arguments
    return .stream (ofCharLists (Text.lines (← Arguments.text subject).toList)) false
  | "join" => do
    atMost 1 arguments
    let joiner ← optional Arguments.text arguments[0]?
    return .ofText (joinItems (joiner.getD "") (← Arguments.items subject))
  | name => next name subject arguments

/-! ## Numbers and conversions -/

def absolute : Value → Except Fault Value
  | .int n => ofInt n.natAbs
  | .float x => .ok (ofFloat (if x.value.isNegative then x.value.negate else x.value))
  | _ => .error .notNumber

def rounded (places : Int) : Value → Except Fault Value
  | .int n => .ok (.int n)
  | .float x =>
    let unit := FloatValue.powerOfTen places
    .ok (ofFloat (FloatValue.div (FloatValue.roundAway (FloatValue.mul unit x.value)) unit))
  | _ => .error .notNumber

def truncated (x : FloatValue) : Value := .int (x.toBoundedInt minInt maxInt)

def toInt : Value → Except Fault Value
  | .undefined | .null => .ok (.int 0)
  | .bool value => .ok (.int value.toNat)
  | .int n => .ok (.int n)
  | .float x => .ok (truncated x.value)
  | .text string _ =>
    match Decimal.readInt? minInt maxInt string, Decimal.readFloat? .double string with
    | some n, _ => .ok (.int n)
    | none, some x => .ok (truncated x)
    | none, none => .error .notNumber
  | _ => .error .notNumber

def toFloat : Value → Except Fault Value
  | .undefined | .null => .ok (ofFloat (FloatValue.zero false))
  | .text string _ =>
    match Decimal.readFloat? .double string with
    | some x => .ok (ofFloat x)
    | none => .error .notNumber
  | value =>
    match value.float? with
    | some x => .ok (ofFloat x)
    | none => .error .notNumber

def plainFilter (next : Filtering) : Filtering := fun name subject arguments =>
  match name with
  | "abs" => do
    atMost 0 arguments
    absolute subject
  | "round" => do
    atMost 1 arguments
    rounded ((← optional (Arguments.int 32) arguments[0]?).getD 0) subject
  | "int" => do
    atMost 0 arguments
    toInt subject
  | "float" => do
    atMost 0 arguments
    toFloat subject
  | "bool" => do
    atMost 0 arguments
    return .bool subject.isTrue
  | "default" | "d" => do
    atMost 2 arguments
    let other ← optional Arguments.value arguments[0]?
    let lax := (← optional Arguments.flag arguments[1]?).getD false
    return if subject.isUndefined || (lax && !subject.isTrue) then other.getD (.ofText "")
      else subject
  | "attr" => do
    atMost 1 arguments
    access subject (← required Arguments.value arguments[0]?)
  | name => next name subject arguments

/-! ## Items -/

def length (subject : Value) : Except Fault Value :=
  match subject.length? with
  | some n => .ok (.ofNat n)
  | none => .error .notIterable

def reversed : Value → Except Fault Value
  | .undefined => .ok .undefined
  | .null => .ok .null
  | .text string _ => .ok (.ofText (String.ofList string.toList.reverse))
  | value =>
    match value.parts? with
    | some items => .ok (.stream items.reverse true)
    | none => .error .notIterable

def firstItem : Value → Except Fault Value
  | .text string _ => .ok ((ofChars string).headD .undefined)
  | value =>
    match value.parts? with
    | some items => .ok (items.headD .undefined)
    | none => .error .notIterable

def lastItem : Value → Except Fault Value
  | .text string _ => .ok ((ofChars string).getLastD .undefined)
  | value =>
    match value.isIterable, value.parts? with
    | true, some items => .ok (items.getLastD .undefined)
    | _, _ => .error .notIterable

def positive (value : Option Value) : Except Fault Nat := do
  match ← required Arguments.count value with
  | 0 => .error .notNumber
  | n => .ok n

def itemFilter (next : Filtering) : Filtering := fun name subject arguments =>
  match name with
  | "length" | "count" => do
    atMost 0 arguments
    length subject
  | "list" => do
    atMost 0 arguments
    return .list (← Arguments.items subject)
  | "first" => do
    atMost 0 arguments
    firstItem subject
  | "last" => do
    atMost 0 arguments
    lastItem subject
  | "reverse" => do
    atMost 0 arguments
    reversed subject
  | "min" => do
    atMost 0 arguments
    return (least? (← Arguments.items subject)).getD .undefined
  | "max" => do
    atMost 0 arguments
    return (greatest? (← Arguments.items subject)).getD .undefined
  | "sum" => do
    atMost 0 arguments
    sum (← Arguments.items subject)
  | "items" => do
    atMost 0 arguments
    match subject.entries? with
    | some entries => return .stream (entries.map ofPair) true
    | none => .error .notIterable
  | "batch" => do
    atMost 2 arguments
    let count ← positive arguments[0]?
    let filler ← optional Arguments.value arguments[1]?
    return .list (rows count filler (← Arguments.items subject))
  | "slice" => do
    atMost 2 arguments
    let count ← positive arguments[0]?
    let filler ← optional Arguments.value arguments[1]?
    return .list (columns count filler (← Arguments.items subject))
  | "chain" => chained (subject :: arguments)
  | "zip" => do
    return .stream (zipped (← (subject :: arguments).mapM Arguments.items)) false
  | name => next name subject arguments

/-! ## Order and groups -/

def turnedIf (reverse : Bool) (items : List Value) : List Value :=
  if reverse then items.reverse else items

def sortFilter (next : Filtering) : Filtering := fun name subject arguments =>
  let (positional, named) := splitKeywords arguments
  match name with
  | "sort" => do
    atMost 0 positional
    let items ← Arguments.items subject
    let exactCase ← flagOf "case_sensitive" named
    let path ← keyword Arguments.string "attribute" named
    let sorted := match path with
      | some path => sortedAt path exactCase items
      | none => sortBy (orderBy exactCase) items
    let reverse ← flagOf "reverse" named
    onlyKnown ["case_sensitive", "attribute", "reverse"] named
    return .list (turnedIf reverse sorted)
  | "dictsort" => do
    atMost 0 positional
    let some entries := subject.entries? | .error .notIterable
    let criterion ← keyword Arguments.string "by" named
    let exactCase ← flagOf "case_sensitive" named
    let reverse ← flagOf "reverse" named
    onlyKnown ["by", "case_sensitive", "reverse"] named
    let sorted := sortedEntries (criterion == some "value") exactCase entries
    return .list (turnedIf reverse (sorted.map ofPair))
  | "unique" => do
    atMost 0 positional
    let path ← keyword Arguments.string "attribute" named
    let exactCase ← flagOf "case_sensitive" named
    onlyKnown ["attribute", "case_sensitive"] named
    let key := fun (item : Value) => distinctKey exactCase (match path with
      | some path => item.followOr .undefined path
      | none => item)
    return .list (distinctBy key (← Arguments.items subject))
  | "groupby" => do
    atMost 1 positional
    let missing := (← keyword Arguments.value "default" named).getD .undefined
    let exactCase ← flagOf "case_sensitive" named
    let path ← match ← optional Arguments.string positional[0]? with
      | some path => do
        onlyKnown ["default", "case_sensitive"] named
        pure path
      | none => do
        onlyKnown ["default", "case_sensitive", "attribute"] named
        required Arguments.string (named.lookup "attribute")
    return .list (groupedAt path missing exactCase (← Arguments.items subject))
  | name => next name subject arguments

/-! ## Selections -/

/-- The items that pass a test, or that fail it.  With a path, what stands there is looked at, and
without a test, whether it counts as true. -/
def selectItems (wanted : Bool) (path : Option String) (subject : Value) (arguments : List Value) :
    Except Fault Value := do
  let test ← optional Arguments.text arguments[0]?
  if test.any fun name => !isTestName name then
    throw (.unknownTest (test.getD ""))
  let items ← Arguments.items subject
  let kept ← items.filterM fun item => do
    let value ← match path with
      | some path => item.follow path
      | none => .ok item
    let passed ← match test with
      | some name => applyTest name true value (arguments.drop 1)
      | none => .ok value.isTrue
    return passed == wanted
  return .list kept

def selectFilter (next : Filtering) : Filtering := fun name subject arguments =>
  match name with
  | "select" => selectItems true none subject arguments
  | "reject" => selectItems false none subject arguments
  | "selectattr" => do
    let path ← required Arguments.text arguments[0]?
    selectItems true (some path) subject (arguments.drop 1)
  | "rejectattr" => do
    let path ← required Arguments.text arguments[0]?
    selectItems false (some path) subject (arguments.drop 1)
  | name => next name subject arguments

def simpleFilter : Filtering :=
  textFilter (plainFilter (itemFilter (sortFilter (selectFilter fun name _ _ =>
    .error (.unknownFilter name)))))

/-! ## Other filters for every item -/

/-- What stands in a value under a path or a key; `missing` if there is nothing, and also where a
path leads nowhere, unless it is undefined. -/
def partOr (missing key value : Value) : Except Fault Value :=
  let found := match key with
    | .text path _ => value.follow path
    | key => value.access key
  match found, missing with
  | .ok .undefined, missing => .ok missing
  | .ok part, _ => .ok part
  | .error fault, .undefined => .error fault
  | .error _, missing => .ok missing

def mapParts (key subject : Value) (positional : List Value)
    (keywords : List (String × Value)) : Except Fault Value := do
  atMost 0 positional
  let missing := (keywords.lookup "default").getD .undefined
  onlyKnown ["attribute", "default"] keywords
  let items ← Arguments.items subject
  return .list (← items.mapM (partOr missing key))

/-- `map` uses the filter that its first argument names on every item, with its other arguments. -/
def applyFilter (positional : List Value) (keywords : Option (List (String × Value)))
    (name : String) (subject : Value) : Except Fault Value :=
  if name == "map" then
    match keywords.bind fun entries => entries.lookup "attribute", positional with
    | some .undefined, [] | some .null, [] | none, [] => .error .missingArgument
    | some .undefined, first :: rest | some .null, first :: rest | none, first :: rest => do
      let filter ← Arguments.string first
      if !filterNames.contains filter then
        throw (.unknownFilter filter)
      let items ← Arguments.items subject
      return .list (← items.mapM fun item => applyFilter rest none filter item)
    | some key, positional => mapParts key subject positional (keywords.getD [])
  else simpleFilter name subject (positional ++ (keywords.map Value.keywords).toList)
termination_by structural positional

end SchemaGo.Template.Value
