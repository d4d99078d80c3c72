import SchemaGo.Template.Order

/-!
# Operators on values

Arithmetic, membership and looking inside values.  Whole numbers have 128 bits, and a result that
does not fit is an error.
-/

namespace SchemaGo.Template.Value

/-! ## Numbers -/

def minInt : Int := -Int.pow 2 127

def maxInt : Int := Int.pow 2 127 - 1

def ofInt (n : Int) : Except Fault Value :=
  if minInt ≤ n && n ≤ maxInt then .ok (.int n) else .error .overflow

def ofFloat (value : FloatValue) : Value := .float (Binary64.ofValue value)

def int? : Value → Option Int
  | .bool value => some value.toNat
  | .int value => if value ≤ maxInt then some value else none
  | .float value => value.value.toInt?.filter fun n => -Int.pow 2 63 ≤ n && n < Int.pow 2 63
  | _ => none

def float? : Value → Option FloatValue
  | .bool value => some (Binary64.ofInt value.toNat).value
  | .int value => some (Binary64.ofInt value).value
  | .float value => some value.value
  | _ => none

def index? (value : Value) : Option Nat :=
  value.int?.bind fun n => if 0 ≤ n && n < Int.pow 2 64 then some n.toNat else none

def isFloat : Value → Bool
  | .float _ => true
  | _ => false

def arithmetic (ofInts : Int → Int → Except Fault Value)
    (ofFloats : FloatValue → FloatValue → FloatValue) (left right : Value) :
    Except Fault Value :=
  if left.isFloat || right.isFloat then
    match left.float?, right.float? with
    | some x, some y => .ok (ofFloat (ofFloats x y))
    | _, _ => .error .unsupportedOperands
  else
    match left.int?, right.int? with
    | some m, some n => ofInts m n
    | _, _ => .error .unsupportedOperands

/-! ## Operators -/

def isIterable (value : Value) : Bool := value.kind == .sequence || value.kind == .iterable

def append (left right : Value) : Value :=
  .stream ((left.parts?.getD []) ++ (right.parts?.getD [])) (left.isSized && right.isSized)

def add (left right : Value) : Except Fault Value :=
  if left.isIterable && right.isIterable then .ok (left.append right)
  else
    match left, right with
    | .text x _, .text y _ => .ok (.ofText (x ++ y))
    | left, right => arithmetic (fun m n => ofInt (m + n)) FloatValue.add left right

def repeatText (text : String) (count : Value) : Except Fault Value :=
  match count.index? with
  | some n => .ok (.ofText (String.join (List.replicate n text)))
  | none => .error .unsupportedOperands

def repeatItems (value count : Value) : Except Fault Value :=
  match value.isSized, value.parts?, count.index? with
  | true, some items, some n => .ok (.stream (List.replicate n items).flatten true)
  | _, _, _ => .error .unsupportedOperands

def multiply (left right : Value) : Except Fault Value :=
  match left, right with
  | .text string _, count => repeatText string count
  | count, .text string _ => repeatText string count
  | left, right =>
    if left.isIterable then repeatItems left right
    else if right.isIterable then repeatItems right left
    else arithmetic (fun m n => ofInt (m * n)) FloatValue.mul left right

def divide (left right : Value) : Except Fault Value :=
  match left.float?, right.float? with
  | some x, some y => .ok (ofFloat (FloatValue.div x y))
  | _, _ => .error .unsupportedOperands

def floorDivide (left right : Value) : Except Fault Value :=
  arithmetic (fun m n => if n == 0 then .error .overflow else ofInt (m / n)) FloatValue.floorDiv
    left right

def remainder (left right : Value) : Except Fault Value :=
  arithmetic (fun m n => if n == 0 then .error .overflow else ofInt (m % n)) FloatValue.remainder
    left right

/-- Powers that do not fit are not worked out in full. -/
def powerInts (m n : Int) : Except Fault Value :=
  if n < 0 || Int.pow 2 32 ≤ n then .error .overflow
  else if m.natAbs ≤ 1 then ofInt (Int.pow m (n.toNat % 2 + (if n == 0 then 0 else 2)))
  else if 128 < n then .error .overflow
  else ofInt (Int.pow m n.toNat)

def power (left right : Value) : Except Fault Value :=
  arithmetic powerInts FloatValue.pow left right

def operate (operator : Operator) (left right : Value) : Except Fault Value :=
  match operator with
  | .add => add left right
  | .subtract => arithmetic (fun m n => ofInt (m - n)) FloatValue.sub left right
  | .concat => .ok (.ofText (left.display ++ right.display))
  | .multiply => multiply left right
  | .divide => divide left right
  | .floorDivide => floorDivide left right
  | .remainder => remainder left right
  | .power => power left right

def negate : Value → Except Fault Value
  | .int n => if n = maxInt + 1 then .ok (.int n) else
      if n ≤ maxInt then ofInt (-n) else .error .overflow
  | .float value => .ok (ofFloat value.value.negate)
  | _ => .error .notNumber

/-! ## Membership and comparison -/

def occursIn (part : List Char) : List Char → Bool
  | [] => part.isEmpty
  | c :: rest => part.isPrefixOf (c :: rest) || occursIn part rest

def isObject (value : Value) : Bool :=
  match value.kind with
  | .sequence | .map | .iterable | .plain => true
  | _ => false

def canBeOne (left right : Value) : Bool :=
  left.isObject && left.kind == right.kind && order left right == .eq

/-- An object is equal to itself, even if it holds what is equal to nothing.  Values that are not
`shared` have been made apart, and are never one object. -/
def isEqualTo (shared : Bool) (left right : Value) : Bool :=
  areEqual left right || (shared && canBeOne left right)

def contains (shared : Bool) (container value : Value) : Except Fault Bool :=
  match container with
  | .undefined => .ok false
  | .text string _ => .ok (occursIn value.display.toList string.toList)
  | .loop .. | .procedure .. | .function _ => .ok false
  | container =>
    match container.entries?, container.parts? with
    | some entries, _ => .ok (valueAt? value entries).isSome
    | none, some items => .ok (items.any fun item => isEqualTo shared item value)
    | none, none => .error .notIterable

def compareWith (comparison : Comparison) (shared : Bool) (left right : Value) :
    Except Fault Bool :=
  match comparison with
  | .equal => .ok (isEqualTo shared left right)
  | .unequal => .ok !(isEqualTo shared left right)
  | .less => .ok (order left right == .lt)
  | .atMost => .ok (order left right != .gt)
  | .greater => .ok (order left right == .gt)
  | .atLeast => .ok (order left right != .lt)
  | .member => contains shared right left
  | .nonMember => (contains shared right left).map (!·)

/-! ## Looking inside -/

def positionIn? (length : Option Nat) (key : Value) : Option Nat :=
  key.int?.bind fun n =>
    if 0 ≤ n then some n.toNat
    else length.bind fun length => if n.natAbs ≤ length then some (length - n.natAbs) else none

def itemAt? (items : List Value) (sized : Bool) (key : Value) : Option Value :=
  (positionIn? (if sized then some items.length else none) key).bind fun position =>
    items[position]?

def loopAttribute? (state : LoopState) (previous next : Value) (name : String) : Option Value :=
  let known := fun (f : Nat → Value) => (state.length.map f).getD .undefined
  match name with
  | "index0" => some (.ofNat state.index)
  | "index" => some (.ofNat (state.index + 1))
  | "length" => some (known .ofNat)
  | "revindex" => some (known fun length => .ofNat (length - state.index))
  | "revindex0" => some (known fun length => .ofNat (length - state.index - 1))
  | "first" => some (.bool (state.index == 0))
  | "last" => some (known fun length => .bool (length == 0 || state.index + 1 == length))
  | "depth" => some (.ofNat (state.depth + 1))
  | "depth0" => some (.ofNat state.depth)
  | "previtem" => some previous
  | "nextitem" => some next
  | _ => none

def find? (value key : Value) : Option Value :=
  match value with
  | .map entries => valueAt? key entries
  | .keywords entries => valueAt? key (textPairs entries)
  | .list items => itemAt? items true key
  | .stream items sized => itemAt? items sized key
  | .group shared items =>
    match key with
    | .text "grouper" _ => some shared
    | .text "list" _ => some (.stream items true)
    | key => itemAt? [shared, .stream items true] true key
  | .text string _ => itemAt? (ofChars string) true key
  | .loop state previous next => key.text?.bind (loopAttribute? state previous next)
  | .procedure name parameters _ callsBack _ =>
    match key with
    | .text "name" _ => some (.ofText name)
    | .text "arguments" _ => some (.list (parameters.names.map .ofText))
    | .text "caller" _ => some (.bool callsBack)
    | _ => none
  | _ => none

/-- A missing part is undefined, and only of what is undefined is it an error. -/
def access (value key : Value) : Except Fault Value :=
  match value.find? key with
  | some found => .ok found
  | none => if value.isUndefined then .error (.undefinedParent key.display) else .ok .undefined

def member (value : Value) (name : String) : Except Fault Value := access value (.ofText name)

def follow (value : Value) (path : String) : Except Fault Value :=
  (Text.splitOn '.' path).foldlM (fun value part =>
    if !part.isEmpty && part.all Char.isDigit then
      value.access (.int (Nat.ofDigitChars 10 part.toList 0))
    else value.member part) value

def followOr (value default : Value) (path : String) : Value :=
  match value.follow path with
  | .ok .undefined | .error _ => default
  | .ok found => found

/-! ## Slices -/

def bound? : Value → Except Fault (Option Int)
  | .null => .ok none
  | value =>
    match value.int?.filter fun n => -Int.pow 2 63 ≤ n && n < Int.pow 2 63 with
    | some n => .ok (some n)
    | none => .error .notSliceable

/-- Positions below zero count from the end, as far as there are any. -/
def fromEnd (length : Nat) (n : Int) : Nat := (if n < 0 then n + length else n).toNat

def positionsUp (first step count : Nat) : List Nat :=
  (List.range count).map fun k => first + step * k

def positionsDown (first step count : Nat) : List Nat :=
  (List.range count).map fun k => first - step * k

/-- The positions that a slice visits.  Upwards, the stop is left out; downwards too, unless it is
the very first position, which counts as no stop at all. -/
def slicePositions (length : Nat) (start stop : Option Int) (step : Int) : List Nat :=
  let stride := step.natAbs
  if 0 < step then
    let first := min length (fromEnd length (start.getD 0))
    let last := min length (fromEnd length (stop.getD length))
    positionsUp first stride ((last - first + stride - 1) / stride)
  else if length == 0 then []
  else
    let first := min (length - 1) (fromEnd length (start.getD (length - 1)))
    let last := fromEnd length (stop.getD 0)
    positionsDown first stride
      ((if last == 0 then first + stride else first - last + stride - 1) / stride)

def pick {α : Type} (items : List α) (positions : List Nat) : List α :=
  let table := items.toArray
  positions.filterMap fun position => table[position]?

def slice (value start stop step : Value) : Except Fault Value := do
  let start ← bound? start
  let stop ← bound? stop
  let step := (← bound? step).getD 1
  if step == 0 then throw .notSliceable
  match value with
  | .undefined | .null => .ok (.list [])
  | .text string _ =>
    let cs := string.toList
    .ok (.ofText (String.ofList (pick cs (slicePositions cs.length start stop step))))
  | value =>
    match value.isIterable, value.parts? with
    | true, some items =>
      .ok (.stream (pick items (slicePositions items.length start stop step)) value.isSized)
    | _, _ => .error .notSliceable

end SchemaGo.Template.Value
