import SchemaGo.Template.Operator

/-!
# Arguments

What filters, tests and functions make of the values they are given.  Keywords come as one value
behind all others, and whoever asks for none finds one argument too many.
-/

namespace SchemaGo.Template

abbrev Arguments.Reading (α : Type) := Value → Except Fault α

namespace Arguments

def text : Reading String
  | .keywords _ => .error .notText
  | value => .ok value.display

def string : Reading String
  | .text value _ => .ok value
  | _ => .error .notText

def count (value : Value) : Except Fault Nat :=
  match value.index? with
  | some n => .ok n
  | none => .error .notNumber

def int (bits : Nat) (value : Value) : Except Fault Int :=
  match value.int? with
  | some n =>
    if -Int.pow 2 (bits - 1) ≤ n && n < Int.pow 2 (bits - 1) then .ok n else .error .notNumber
  | none => .error .notNumber

def flag (value : Value) : Except Fault Bool := .ok value.isTrue

def value (value : Value) : Except Fault Value := .ok value

/-- An argument that is missing, undefined or nothing is none. -/
def optional {α : Type} (read : Reading α) : Option Value → Except Fault (Option α)
  | none | some .undefined | some .null => .ok none
  | some value => some <$> read value

def required {α : Type} (read : Reading α) : Option Value → Except Fault α
  | none => .error .missingArgument
  | some value => read value

def items (value : Value) : Except Fault (List Value) :=
  match value.items? with
  | some items => .ok items
  | none => .error .notIterable

/-! ## Keywords -/

def splitKeywords (arguments : List Value) : List Value × List (String × Value) :=
  match arguments.getLast? with
  | some (.keywords entries) => (arguments.dropLast, entries)
  | _ => (arguments, [])

def keyword {α : Type} (read : Reading α) (name : String) (keywords : List (String × Value)) :
    Except Fault (Option α) :=
  optional read (keywords.lookup name)

def flagOf (name : String) (keywords : List (String × Value)) : Except Fault Bool := do
  return (← keyword flag name keywords).getD false

def onlyKnown (names : List String) (keywords : List (String × Value)) : Except Fault Unit :=
  match keywords.find? fun (name, _) => !names.contains name with
  | some (name, _) => .error (.unknownKeyword name)
  | none => .ok ()

def atMost (n : Nat) (arguments : List Value) : Except Fault Unit :=
  if arguments.length ≤ n then .ok () else .error .tooManyArguments

end Arguments

end SchemaGo.Template
