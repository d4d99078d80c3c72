import SchemaGo.Template.Arguments
import SchemaGo.Template.Machine
import SchemaGo.Template.Names

/-!
# Functions

The functions that every template can call, and how arguments are bound to the parameters of a
macro.
-/

namespace SchemaGo.Template

open Arguments (required optional atMost splitKeywords)

/-! ## Built-in functions -/

def maxRange : Nat := 100000

def rangeLength (first last step : Int) : Nat :=
  if 0 < step then ((last - first + step - 1) / step).toNat
  else ((first - last - step - 1) / -step).toNat

def rangeOf (arguments : List Value) : Except Fault Value := do
  atMost 3 arguments
  let lower ← required (Arguments.int 64) arguments[0]?
  let upper ← optional (Arguments.int 64) arguments[1]?
  let step := (← optional (Arguments.int 64) arguments[2]?).getD 1
  let (first, last) := match upper with
    | some upper => (lower, upper)
    | none => (0, lower)
  let length := if step == 0 then 0 else rangeLength first last step
  if step == 0 || maxRange < length then throw .overflow
  return .stream ((List.range length).map fun (k : Nat) => .int (first + step * k)) true

def dictOf (arguments : List Value) : Except Fault Value := do
  let (positional, keywords) := splitKeywords arguments
  atMost 1 positional
  let entries ← match ← optional Arguments.value positional[0]? with
    | none => pure []
    | some value =>
      match value.entries? with
      | some entries => pure entries
      | none => throw .notIterable
  return .map (keywords.foldl (fun entries (name, value) =>
    Value.insertEntry (.ofText name) value entries) entries)

def spaceOf (arguments : List Value) : Except Fault Bindings := do
  atMost 1 arguments
  match ← optional Arguments.value arguments[0]? with
  | none => return []
  | some value =>
    match value.entries? with
    | some entries => entries.mapM fun (key, value) => do
      return (← Arguments.string key, value)
    | none => throw .notIterable

def debugOf (arguments : List Value) : Value :=
  match arguments with
  | [value] => .ofText value.pretty
  | values => .ofText (Value.list values).pretty

def callFunction (name : String) (arguments : List Value) : Run Value := do
  let arguments ← arguments.mapM Run.settle
  match name with
  | "range" => rangeOf arguments
  | "dict" => dictOf arguments
  | "namespace" => do Run.makeSpace (← spaceOf arguments)
  | "debug" => return debugOf arguments
  | name => throw (.unknownFunction name)

/-! ## Parameters -/

/-- What a parameter is given: an argument by its place or by its name, but not both. -/
def argumentFor (positional : List Value) (keywords : Bindings) (place : Nat) (name : String) :
    Except Fault Value :=
  match positional[place]?, keywords.lookup name with
  | some _, some _ => .error .tooManyArguments
  | some value, none => .ok value
  | none, some value => .ok value
  | none, none => .ok .undefined

def bindParameters (parameters : Parameters) (callsBack : Bool) (positional : List Value)
    (keywords : Bindings) : Except Fault (List (String × Value × Option Expr)) := do
  let names := parameters.names
  Arguments.atMost names.length positional
  let values ← names.zipIdx.mapM fun (name, place) => argumentFor positional keywords place name
  Arguments.onlyKnown (if callsBack then "caller" :: names else names) keywords
  let defaults := List.replicate (names.length - parameters.defaults.length) none ++
    parameters.defaults.map some
  return (names.zip (values.zip defaults)).reverse

def procedure (name : String) (parameters : Parameters) (body : List Node) : Run Value := do
  let names := namesAround parameters body
  return .procedure name parameters body (names.contains "caller") (← Run.enclose names)

end SchemaGo.Template
