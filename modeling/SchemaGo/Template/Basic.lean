import SchemaGo.Number.Binary

/-!
# Templates

A template is text with places in it: expressions that are printed, and statements that choose,
repeat, name or gather parts of it.
-/

namespace SchemaGo.Template

/-! ## Expressions -/

inductive Literal where
  | null
  | bool (value : Bool)
  | int (value : Nat)
  | float (value : Binary64)
  | text (value : String)
deriving DecidableEq, Repr

inductive Operator where
  | add
  | subtract
  | concat
  | multiply
  | divide
  | floorDivide
  | remainder
  | power
deriving DecidableEq, Repr

inductive Comparison where
  | equal
  | unequal
  | less
  | atMost
  | greater
  | atLeast
  | member
  | nonMember
deriving DecidableEq, Repr

def Comparison.looksInside : Comparison → Bool
  | .member | .nonMember => true
  | _ => false

mutual

/-- A comparison may go on: `a < b < c` says `a < b` and `b < c`. -/
inductive Expr where
  | literal (value : Literal)
  | name (name : String)
  | list (items : List Expr)
  | map (entries : List (Expr × Expr))
  | attribute (parent : Expr) (name : String)
  | item (parent index : Expr)
  | slice (parent : Expr) (start stop step : Option Expr)
  | call (callee : Expr) (arguments : List Argument)
  | filter (name : String) (subject : Expr) (arguments : List Argument)
  | test (name : String) (subject : Expr) (arguments : List Argument)
  | not (operand : Expr)
  | negate (operand : Expr)
  | or (left right : Expr)
  | and (left right : Expr)
  | binary (operator : Operator) (left right : Expr)
  | compare (first : Expr) (rest : List (Comparison × Expr))
  | choose (condition yes : Expr) (no : Option Expr)

inductive Argument where
  | positional (value : Expr)
  | keyword (name : String) (value : Expr)
  | spread (values : Expr)
  | spreadKeywords (values : Expr)

end

/-! ## Statements -/

inductive Target where
  | name (name : String)
  | attribute (parent : Expr) (name : String)
  | list (items : List Target)

structure FilterCall where
  name : String
  arguments : List Argument

structure Parameters where
  names : List String
  defaults : List Expr

inductive Node where
  | text (text : String)
  | print (value : Expr)
  | set (target : Target) (value : Expr)
  | capture (target : Target) (filters : List FilterCall) (body : List Node)
  | branch (condition : Expr) (yes no : List Node)
  | loop (target : Target) (source : Expr) (condition : Option Expr) (recursive : Bool)
      (body otherwise : List Node)
  | scope (bindings : List (Target × Expr)) (body : List Node)
  | escape (mode : Expr) (body : List Node)
  | filter (filters : List FilterCall) (body : List Node)
  | block (name : String) (body : List Node)
  | macroDef (name : String) (parameters : Parameters) (body : List Node)
  | callBlock (callee : Expr) (arguments : List Argument) (parameters : Parameters)
      (body : List Node)
  | run (call : Expr)
  | insertion (template : Expr) (optional : Bool)
  | parent (template : Expr)

structure Document where
  nodes : List Node
  blocks : List (String × List Node)

/-! ## Faults -/

inductive Fault where
  | malformed
  | tooDeep
  | undefinedParent (name : String)
  | unsupportedOperands
  | overflow
  | notNumber
  | notText
  | notIterable
  | notSliceable
  | notCallable
  | notAssignable
  | wrongItemCount
  | missingArgument
  | tooManyArguments
  | unknownKeyword (name : String)
  | unknownFilter (name : String)
  | unknownTest (name : String)
  | unknownFunction (name : String)
  | unknownBlock (name : String)
  | unknownTemplate (name : String)
  | badEscaping
deriving DecidableEq, Repr

end SchemaGo.Template
