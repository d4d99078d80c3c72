import SchemaGo.Ast.Plain
import SchemaGo.Number.Decimal
import SchemaGo.Template.Basic
import SchemaGo.Text.Quoted
import SchemaGo.Text.Split

/-!
# Values in templates

What expressions stand for, and how it prints.  A name that is bound to nothing is undefined;
printing it yields nothing, and only looking inside it is an error.
-/

namespace SchemaGo.Template

/-- Where a loop stands.  The length is missing when it is not known, and `id` tells loops apart. -/
structure LoopState where
  id : Nat
  index : Nat
  length : Option Nat
  depth : Nat
deriving DecidableEq, Repr

/-- Texts that are safe need no escaping.  A stream has items but no positions; one that is not
sized does not tell how many.  A namespace and the variables around a macro are kept elsewhere,
under a number. -/
inductive Value where
  | undefined
  | null
  | bool (value : Bool)
  | int (value : Int)
  | float (value : Binary64)
  | text (value : String) (safe : Bool)
  | list (items : List Value)
  | map (entries : List (Value × Value))
  | stream (items : List Value) (sized : Bool)
  | group (key : Value) (items : List Value)
  | keywords (entries : List (String × Value))
  | loop (state : LoopState) (previous next : Value)
  | space (id : Nat)
  | procedure (name : String) (parameters : Parameters) (body : List Node) (callsBack : Bool)
      (kept : Nat)
  | function (name : String)

namespace Value

def ofText (text : String) : Value := .text text false

def ofNat (n : Nat) : Value := .int n

mutual

def ofPlain : Plain → Value
  | .null => .null
  | .bool value => .bool value
  | .int value => .int value
  | .float value => .float value
  | .text value => .text value false
  | .list items => .list (ofPlains items)
  | .object entries => .map (ofEntries entries)
termination_by structural value => value

def ofPlains : List Plain → List Value
  | [] => []
  | item :: rest => ofPlain item :: ofPlains rest
termination_by structural items => items

def ofEntries : List (String × Plain) → List (Value × Value)
  | [] => []
  | (key, value) :: rest => (.text key false, ofPlain value) :: ofEntries rest
termination_by structural entries => entries

end

def ofLiteral : Literal → Value
  | .null => .null
  | .bool value => .bool value
  | .int value => .int value
  | .float value => .float value
  | .text value => .text value false

/-! ## Kinds -/

inductive Kind where
  | undefined
  | null
  | bool
  | number
  | text
  | sequence
  | map
  | iterable
  | plain
deriving DecidableEq, Repr

def Kind.rank : Kind → Nat
  | .undefined => 0
  | .null => 1
  | .bool => 2
  | .number => 3
  | .text => 4
  | .sequence => 5
  | .map => 6
  | .iterable => 7
  | .plain => 8

def kind : Value → Kind
  | .undefined => .undefined
  | .null => .null
  | .bool _ => .bool
  | .int _ | .float _ => .number
  | .text .. => .text
  | .list _ | .group .. => .sequence
  | .map _ | .keywords _ | .space _ => .map
  | .stream .. => .iterable
  | .loop .. | .procedure .. | .function _ => .plain

/-! ## Parts -/

def textPairs (entries : List (String × Value)) : List (Value × Value) :=
  entries.map fun (key, value) => (.text key false, value)

def entries? : Value → Option (List (Value × Value))
  | .map entries => some entries
  | .keywords entries => some (textPairs entries)
  | _ => none

def procedureAttributes : List String := ["name", "arguments", "caller"]

def loopAttributes : List String :=
  ["index0", "index", "length", "revindex", "revindex0", "first", "last", "depth", "depth0",
    "previtem", "nextitem"]

/-- The items of everything that is made of other values; of maps these are the keys. -/
def parts? : Value → Option (List Value)
  | .list items | .stream items _ => some items
  | .group key items => some [key, .stream items true]
  | .map entries => some (entries.map (·.1))
  | .keywords entries => some (entries.map fun (key, _) => .text key false)
  | .loop .. => some (loopAttributes.map ofText)
  | .procedure .. => some (procedureAttributes.map ofText)
  | _ => none

def ofChars (s : String) : List Value := s.toList.map fun c => ofText (String.ofList [c])

def items? : Value → Option (List Value)
  | .undefined | .null => some []
  | .text value _ => some (ofChars value)
  | value => value.parts?

def isSized : Value → Bool
  | .stream _ sized => sized
  | _ => true

def length? : Value → Option Nat
  | .text value _ => some value.length
  | value => if value.isSized then value.parts?.map List.length else none

def isTrue : Value → Bool
  | .undefined | .null => false
  | .bool value => value
  | .int value => value != 0
  | .float value => !value.value.isZero
  | .text value _ => !value.isEmpty
  | .loop .. | .procedure .. | .function _ | .space _ => true
  | value => value.length? != some 0

def isUndefined : Value → Bool
  | .undefined => true
  | _ => false

def text? : Value → Option String
  | .text value _ => some value
  | _ => none

def isSafe : Value → Bool
  | .text _ safe => safe
  | _ => false

/-! ## Text -/

def displayFloat (x : Binary64) : String :=
  let text := Decimal.plain .double x.value
  match x.value with
  | .finite .. => if text.toList.contains '.' then text else text ++ ".0"
  | _ => text

/-- Inside other values, numbers below `10 ^ -4` or from `10 ^ 16` on have an exponent. -/
def inspectFloat (x : Binary64) : String :=
  match x.value with
  | .finite negative m q =>
    let s := Decimal.shortest .double m q
    if m != 0 && (s.exponent < -4 || 16 ≤ s.exponent) then
      let fraction := s.digits.drop 1
      Decimal.signed negative (s.digits.take 1 ++
        (if fraction.isEmpty then [] else '.' :: fraction) ++
        'e' :: (toString s.exponent).toList)
    else displayFloat x
  | _ => displayFloat x

def showBool (value : Bool) : String := if value then "True" else "False"

def showLoop (state : LoopState) : String :=
  "<loop " ++ toString state.index ++ "/" ++ toString (state.length.getD 0) ++ ">"

def inspectPlain : Value → String
  | .undefined => "undefined"
  | .null => "None"
  | .bool value => showBool value
  | .int value => toString value
  | .float value => inspectFloat value
  | .text value _ => Text.quote value
  | .loop state _ _ => showLoop state
  | .procedure name .. => "<macro " ++ name ++ ">"
  | .function name => "<function " ++ name ++ ">"
  | _ => "<iterator>"

def bracketed (parts : List String) : String := "[" ++ Text.joinWith ", " parts ++ "]"

def braced (parts : List String) : String := "\x7b" ++ Text.joinWith ", " parts ++ "\x7d"

mutual

def inspect : Value → String
  | .list items => bracketed (inspectAll items)
  | .stream items true => bracketed (inspectAll items)
  | .group key items => bracketed [inspect key, bracketed (inspectAll items)]
  | .map entries => braced (inspectEntries entries)
  | .keywords entries => braced (inspectKeywords entries)
  | value => inspectPlain value
termination_by structural value => value

def inspectAll : List Value → List String
  | [] => []
  | item :: rest => inspect item :: inspectAll rest
termination_by structural items => items

def inspectEntries : List (Value × Value) → List String
  | [] => []
  | (key, value) :: rest => (inspect key ++ ": " ++ inspect value) :: inspectEntries rest
termination_by structural entries => entries

def inspectKeywords : List (String × Value) → List String
  | [] => []
  | (key, value) :: rest => (Text.quote key ++ ": " ++ inspect value) :: inspectKeywords rest
termination_by structural entries => entries

end

def display : Value → String
  | .undefined => ""
  | .text value _ => value
  | .float value => displayFloat value
  | value => inspect value

/-! ## Text over several lines -/

def indented (text : String) : String :=
  String.ofList (text.toList.flatMap fun c => if c = '\n' then "\n    ".toList else [c])

def spreadOut (opening closing : String) (parts : List String) : String :=
  if parts.isEmpty then opening ++ closing
  else
    let lines := parts.map fun part => "\n    " ++ indented part ++ ","
    opening ++ String.join lines ++ "\n" ++ closing

mutual

def pretty : Value → String
  | .list items => spreadOut "[" "]" (prettyAll items)
  | .stream items true => spreadOut "[" "]" (prettyAll items)
  | .group key items => spreadOut "[" "]" [pretty key, spreadOut "[" "]" (prettyAll items)]
  | .map entries => spreadOut "\x7b" "\x7d" (prettyEntries entries)
  | .keywords entries => spreadOut "\x7b" "\x7d" (prettyKeywords entries)
  | value => inspectPlain value
termination_by structural value => value

def prettyAll : List Value → List String
  | [] => []
  | item :: rest => pretty item :: prettyAll rest
termination_by structural items => items

def prettyEntries : List (Value × Value) → List String
  | [] => []
  | (key, value) :: rest => (pretty key ++ ": " ++ pretty value) :: prettyEntries rest
termination_by structural entries => entries

def prettyKeywords : List (String × Value) → List String
  | [] => []
  | (key, value) :: rest => (Text.quote key ++ ": " ++ pretty value) :: prettyKeywords rest
termination_by structural entries => entries

end

/-! ## Escaping -/

def escapeChar : Char → List Char
  | '&' => "&amp;".toList
  | '<' => "&lt;".toList
  | '>' => "&gt;".toList
  | '"' => "&quot;".toList
  | '\'' => "&#x27;".toList
  | '/' => "&#x2f;".toList
  | c => [c]

def escapeText (text : String) : String := String.ofList (text.toList.flatMap escapeChar)

def escaped (value : Value) : String :=
  if value.isSafe then value.display else escapeText value.display

end Value

end SchemaGo.Template
