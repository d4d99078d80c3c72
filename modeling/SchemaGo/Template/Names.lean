import SchemaGo.Template.Basic

/-!
# Names in templates

The names that a piece of a template mentions.  They are what a macro has to keep of the variables
around it.
-/

namespace SchemaGo.Template

/-! ## Expressions -/

mutual

def Expr.names : Expr → List String
  | .literal _ => []
  | .name name => [name]
  | .list items => namesOfAll items
  | .map entries => namesOfEntries entries
  | .attribute parent _ => parent.names
  | .item parent index => parent.names ++ index.names
  | .slice parent start stop step =>
    parent.names ++ namesOfOption start ++ namesOfOption stop ++ namesOfOption step
  | .call callee arguments => callee.names ++ namesOfArguments arguments
  | .filter _ subject arguments => subject.names ++ namesOfArguments arguments
  | .test _ subject arguments => subject.names ++ namesOfArguments arguments
  | .not operand => operand.names
  | .negate operand => operand.names
  | .or left right => left.names ++ right.names
  | .and left right => left.names ++ right.names
  | .binary _ left right => left.names ++ right.names
  | .compare first rest => first.names ++ namesOfComparisons rest
  | .choose condition yes no => condition.names ++ yes.names ++ namesOfOption no
termination_by structural expr => expr

def Argument.names : Argument → List String
  | .positional value => value.names
  | .keyword _ value => value.names
  | .spread values => values.names
  | .spreadKeywords values => values.names
termination_by structural argument => argument

def namesOfAll : List Expr → List String
  | [] => []
  | item :: rest => item.names ++ namesOfAll rest
termination_by structural items => items

def namesOfEntries : List (Expr × Expr) → List String
  | [] => []
  | (key, value) :: rest => key.names ++ value.names ++ namesOfEntries rest
termination_by structural entries => entries

def namesOfOption : Option Expr → List String
  | none => []
  | some value => value.names
termination_by structural value => value

def namesOfArguments : List Argument → List String
  | [] => []
  | argument :: rest => argument.names ++ namesOfArguments rest
termination_by structural arguments => arguments

def namesOfComparisons : List (Comparison × Expr) → List String
  | [] => []
  | (_, operand) :: rest => operand.names ++ namesOfComparisons rest
termination_by structural rest => rest

end

/-! ## Statements -/

mutual

def Target.names : Target → List String
  | .name name => [name]
  | .attribute parent _ => parent.names
  | .list items => namesOfTargets items
termination_by structural target => target

def namesOfTargets : List Target → List String
  | [] => []
  | target :: rest => target.names ++ namesOfTargets rest
termination_by structural targets => targets

end

def FilterCall.names (call : FilterCall) : List String := namesOfArguments call.arguments

/-- The names in the defaults; the parameters themselves are no names from outside. -/
def Parameters.outerNames (parameters : Parameters) : List String := namesOfAll parameters.defaults

mutual

def Node.names : Node → List String
  | .text _ => []
  | .print value => value.names
  | .set target value => target.names ++ value.names
  | .capture target filters body =>
    target.names ++ filters.flatMap FilterCall.names ++ namesOfNodes body
  | .branch condition yes no => condition.names ++ namesOfNodes yes ++ namesOfNodes no
  | .loop target source condition _ body otherwise =>
    target.names ++ source.names ++ namesOfOption condition ++ namesOfNodes body ++
      namesOfNodes otherwise
  | .scope bindings body =>
    (bindings.flatMap fun (target, value) => target.names ++ value.names) ++ namesOfNodes body
  | .escape mode body => mode.names ++ namesOfNodes body
  | .filter filters body => filters.flatMap FilterCall.names ++ namesOfNodes body
  | .block _ body => namesOfNodes body
  | .macroDef name parameters body =>
    name :: parameters.outerNames ++
      (namesOfNodes body).filter fun name => !parameters.names.contains name
  | .callBlock callee arguments parameters body =>
    callee.names ++ namesOfArguments arguments ++ parameters.outerNames ++
      (namesOfNodes body).filter fun name => !parameters.names.contains name
  | .run call => call.names
  | .insertion template _ => template.names
  | .parent template => template.names
termination_by structural node => node

def namesOfNodes : List Node → List String
  | [] => []
  | node :: rest => node.names ++ namesOfNodes rest
termination_by structural nodes => nodes

end

def namesAround (parameters : Parameters) (body : List Node) : List String :=
  (parameters.outerNames ++ namesOfNodes body).filter fun name => !parameters.names.contains name

end SchemaGo.Template
