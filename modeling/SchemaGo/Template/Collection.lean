import SchemaGo.Template.Arguments
import SchemaGo.Text.Case

/-!
# Collections of values

Sorting, grouping and cutting up lists of values, and putting several together.
-/

namespace SchemaGo.Template.Value

/-! ## Least and greatest -/

def least? : List Value → Option Value
  | [] => none
  | first :: rest =>
    some (rest.foldl (fun best item => if order best item == .gt then item else best) first)

def greatest? : List Value → Option Value
  | [] => none
  | first :: rest =>
    some (rest.foldl (fun best item => if order best item == .gt then best else item) first)

def sum (items : List Value) : Except Fault Value :=
  items.foldlM (fun total item =>
    match item.kind with
    | .undefined => .ok total
    | .number => add total item
    | _ => .error .notNumber) (.int 0)

/-! ## Sorting -/

def sortedAt (path : String) (exactCase : Bool) (items : List Value) : List Value :=
  let keyed := items.map fun item => (item.follow path, item)
  let sorted := sortBy (fun (left, _) (right, _) =>
    match left, right with
    | .ok left, .ok right => orderBy exactCase left right
    | _, _ => .eq) keyed
  sorted.map (·.2)

def sortedEntries (byValue exactCase : Bool) (entries : List (Value × Value)) :
    List (Value × Value) :=
  sortBy (fun left right =>
    if byValue then orderBy exactCase left.2 right.2 else orderBy exactCase left.1 right.1) entries

def ofPair (entry : Value × Value) : Value := .list [entry.1, entry.2]

/-! ## Grouping -/

/-- Neighbours with the same key are one group, which has the key of its last item. -/
def groupsFrom (exactCase : Bool) : Value → List Value → List (Value × Value) → List Value
  | key, members, [] => [.group key members.reverse]
  | key, members, (next, item) :: rest =>
    if orderBy exactCase key next == .eq then groupsFrom exactCase next (item :: members) rest
    else .group key members.reverse :: groupsFrom exactCase next [item] rest

def groupedAt (path : String) (missing : Value) (exactCase : Bool) (items : List Value) :
    List Value :=
  let keyed := items.map fun item => (item.followOr missing path, item)
  match sortBy (fun (left, _) (right, _) => orderBy exactCase left right) keyed with
  | [] => []
  | (key, item) :: rest => groupsFrom exactCase key [item] rest

def distinctKey (exactCase : Bool) : Value → Value
  | .text string safe => if exactCase then .text string safe else .ofText (Text.lower string)
  | value => value

def distinctBy (key : Value → Value) (items : List Value) : List Value :=
  let (kept, _) := items.foldl (fun ((kept, seen) : List Value × List Value) item =>
    let here := key item
    if seen.any fun other => order other here == .eq then (kept, seen)
    else (item :: kept, here :: seen)) ([], [])
  kept.reverse

/-! ## Cutting up -/

def rowsFrom (count : Nat) : List Value → List Value → List (List Value)
  | row, [] => if row.isEmpty then [] else [row.reverse]
  | row, item :: rest =>
    if row.length == count then row.reverse :: rowsFrom count [item] rest
    else rowsFrom count (item :: row) rest

def rows (count : Nat) (filler : Option Value) (items : List Value) : List Value :=
  (rowsFrom count [] items).map fun row =>
    match filler with
    | some filler => .list (row ++ List.replicate (count - row.length) filler)
    | none => .list row

/-- So many columns of nearly the same length, the longer ones first; the shorter ones may be filled
up. -/
def columns (count : Nat) (filler : Option Value) (items : List Value) : List Value :=
  let length := items.length / count
  let longer := items.length % count
  (List.range count).map fun k =>
    let column := (items.drop (k * length + min k longer)).take
      (if k < longer then length + 1 else length)
    match filler with
    | some filler => .list (if k < longer then column else column ++ [filler])
    | none => .list column

/-! ## Putting together -/

def mergedEntries (maps : List (List (Value × Value))) : List (Value × Value) :=
  let all := maps.flatten.foldl (fun entries (key, value) =>
    if value.isUndefined then entries else insertEntry key value entries) []
  sortBy (fun left right => order left.1 right.1) all

def chained (values : List Value) : Except Fault Value := do
  match values.mapM entries? with
  | some maps => return .map (mergedEntries maps)
  | none =>
    let items ← values.mapM Arguments.items
    if values.all fun value => value.kind == .sequence then return .list items.flatten
    else return .stream items.flatten false

def zipped (lists : List (List Value)) : List Value :=
  let length := (lists.map List.length).foldl min (lists.headD []).length
  let tables := lists.map List.toArray
  (List.range length).map fun k => .list (tables.filterMap fun items => items[k]?)

end SchemaGo.Template.Value
