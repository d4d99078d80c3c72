import SchemaGo.Template.Filter
import SchemaGo.Template.Function
import SchemaGo.Template.Parser

/-!
# Rendering templates

The text of a template against a value whose entries are the names it starts with.  Expressions are
evaluated and statements are run with an amount of fuel that no template uses up: every step goes
one deeper into the template, and only calls, which are counted, start again from its top.
-/

namespace SchemaGo.Template

/-! ## Single steps -/

def addKeywords (value : Value) (keywords : Bindings) : Except Fault Bindings :=
  match value.entries? with
  | none => .error .notIterable
  | some entries => entries.foldlM (fun keywords (key, value) => do
      return Bindings.set (← Arguments.string key) value keywords) keywords

def withKeywords (positional : List Value) (keywords : Option Bindings) : List Value :=
  positional ++ (keywords.map Value.keywords).toList

def escapingOf : Value → Except Fault Bool
  | .text "html" _ => .ok true
  | .text "none" _ => .ok false
  | .text .. => .error .badEscaping
  | value => .ok (value.areEqual (.bool true))

def insertNothing (template : Value) (optional : Bool) : Except Fault Unit := do
  let choices := template.parts?.getD [template]
  for choice in choices do
    let _ ← Arguments.string choice
  if choices.isEmpty || optional then return
  else throw (.unknownTemplate template.display)

/-- Whether an expression can yield an object that is there already; a list or a map that is written
out is a new one. -/
def canShare : Expr → Bool
  | .list _ | .map _ => false
  | _ => true

def canShareArgument : Argument → Bool
  | .positional value => canShare value
  | _ => true

def callLoopMethod (state : LoopState) (name : String) (arguments : List Value) : Run Value :=
  match name with
  | "cycle" =>
    match arguments[state.index % arguments.length]? with
    | some value => return value
    | none => throw .missingArgument
  | "changed" => do return .bool (← Run.areNew state.id arguments)
  | name => throw (.unknownFunction name)

def partOf (value key : Value) : Run Value := do
  match value with
  | .space id =>
    let entries := Run.spaceEntries (← get) id
    return (key.text?.bind fun name => entries.lookup name).getD .undefined
  | value => value.access key

/-! ## Evaluation -/

mutual

def evaluate : Nat → Expr → Run Value
  | 0, _ => throw .tooDeep
  | fuel + 1, expr => do
    match expr with
    | .literal value => return .ofLiteral value
    | .name name => return (← Run.lookup? name).getD .undefined
    | .list items => return .list (← items.mapM (evaluate fuel))
    | .map entries =>
      let entries ← entries.foldlM (fun entries (key, value) => do
        let key ← evaluate fuel key
        return Value.insertEntry key (← evaluate fuel value) entries) []
      return .map entries
    | .attribute parent name => partOf (← evaluate fuel parent) (.ofText name)
    | .item parent index =>
      let parent ← evaluate fuel parent
      partOf parent (← evaluate fuel index)
    | .slice parent start stop step =>
      let parent ← settledValue fuel parent
      let bound := fun (part : Option Expr) =>
        match part with
        | some part => evaluate fuel part
        | none => pure Value.null
      let start ← bound start
      let stop ← bound stop
      parent.slice start stop (← bound step)
    | .call callee arguments => evaluateCall fuel callee arguments none
    | .filter name subject arguments =>
      let subject ← settledValue fuel subject
      applyFilterCall fuel subject ⟨name, arguments⟩
    | .test name subject arguments =>
      let value ← settledValue fuel subject
      let (positional, keywords) ← evaluateArguments fuel arguments
      let given ← (withKeywords positional keywords).mapM Run.settle
      let shared := canShare subject && arguments.all canShareArgument
      return .bool (← value.applyTest name shared given)
    | .not operand => return .bool (!(← settledValue fuel operand).isTrue)
    | .negate operand => (← evaluate fuel operand).negate
    | .or left right =>
      let value ← evaluate fuel left
      if (← Run.settle value).isTrue then return value else evaluate fuel right
    | .and left right =>
      let value ← evaluate fuel left
      if (← Run.settle value).isTrue then evaluate fuel right else return value
    | .binary operator left right =>
      let left ← settledValue fuel left
      Value.operate operator left (← settledValue fuel right)
    | .compare first rest =>
      evaluateComparisons fuel (canShare first) (← settledValue fuel first) rest
    | .choose condition yes no =>
      if (← settledValue fuel condition).isTrue then evaluate fuel yes
      else match no with
        | some no => evaluate fuel no
        | none => return .undefined
termination_by structural fuel => fuel

def settledValue : Nat → Expr → Run Value
  | 0, _ => throw .tooDeep
  | fuel + 1, expr => do Run.settle (← evaluate fuel expr)
termination_by structural fuel => fuel

/-- Every comparison has to hold, and the first one that does not is the last one looked at. -/
def evaluateComparisons : Nat → Bool → Value → List (Comparison × Expr) → Run Value
  | 0, _, _, _ => throw .tooDeep
  | _ + 1, _, _, [] => return .bool true
  | fuel + 1, shared, left, (comparison, operand) :: rest => do
    let right ← settledValue fuel operand
    let both := shared && (comparison.looksInside || canShare operand)
    if ← Value.compareWith comparison both left right then
      evaluateComparisons fuel (canShare operand) right rest
    else return .bool false
termination_by structural fuel => fuel

def evaluateArguments : Nat → List Argument → Run (List Value × Option Bindings)
  | 0, _ => throw .tooDeep
  | fuel + 1, arguments =>
    arguments.foldlM (fun (positional, keywords) argument => do
      match argument with
      | .positional value => return (positional ++ [← evaluate fuel value], keywords)
      | .keyword name value =>
        let value ← evaluate fuel value
        return (positional, some (Bindings.set name value (keywords.getD [])))
      | .spread values =>
        let items ← Arguments.items (← settledValue fuel values)
        return (positional ++ items, keywords)
      | .spreadKeywords values =>
        let keywords ← addKeywords (← settledValue fuel values) (keywords.getD [])
        return (positional, some keywords)) ([], none)
termination_by structural fuel => fuel

def applyFilterCall : Nat → Value → FilterCall → Run Value
  | 0, _, _ => throw .tooDeep
  | fuel + 1, subject, call => do
    let (positional, keywords) ← evaluateArguments fuel call.arguments
    let positional ← positional.mapM Run.settle
    let keywords ← keywords.mapM fun entries =>
      entries.mapM fun (name, value) => do return (name, ← Run.settle value)
    (← Run.settle subject).applyFilter positional keywords call.name
termination_by structural fuel => fuel

def evaluateCall : Nat → Expr → List Argument → Option Value → Run Value
  | 0, _, _, _ => throw .tooDeep
  | fuel + 1, callee, arguments, caller => do
    let given := do
      let (positional, keywords) ← evaluateArguments fuel arguments
      let keywords := match caller with
        | some caller => some (Bindings.set "caller" caller (keywords.getD []))
        | none => keywords
      return (positional, keywords)
    match callee with
    | .name "super" => throw (.unknownBlock "super")
    | .name "loop" =>
      let (positional, keywords) ← given
      enterLoop fuel (withKeywords positional keywords)
    | .name name =>
      let (positional, keywords) ← given
      match ← Run.lookup? name with
      | some function => call fuel function positional keywords
      | none => throw (.unknownFunction name)
    | .attribute (.name "self") name =>
      match (← get).blocks.lookup name with
      | some body => Run.captured (← runBlock fuel body)
      | none => throw (.unknownBlock name)
    | .attribute parent name =>
      let subject ← evaluate fuel parent
      let (positional, keywords) ← given
      match subject with
      | .loop state _ _ => callLoopMethod state name (withKeywords positional keywords)
      | subject =>
        match ← partOf subject (.ofText name) with
        | .undefined => throw (.unknownFunction name)
        | function => call fuel function positional keywords
    | callee =>
      let function ← evaluate fuel callee
      let (positional, keywords) ← given
      call fuel function positional keywords
termination_by structural fuel => fuel

def call : Nat → Value → List Value → Option Bindings → Run Value
  | 0, _, _, _ => throw .tooDeep
  | fuel + 1, function, positional, keywords => do
    match function with
    | .function name => callFunction name (withKeywords positional keywords)
    | .procedure _ parameters body callsBack kept =>
      let entries := keywords.getD []
      let bound ← bindParameters parameters callsBack positional entries
      let caller := (entries.lookup "caller").getD .undefined
      let locals := if callsBack then [("caller", caller)] else []
      let text ← Run.inCall { locals, enclosed := some kept } do
        for (name, value, default) in bound do
          match value, default with
          | .undefined, some default => Run.store name (← evaluate fuel default)
          | value, _ => Run.store name value
        renderNodes fuel body
      Run.captured text
    | _ => throw .notCallable
termination_by structural fuel => fuel

/-- Binds a value to a target.  Only values with items can be bound to a list of targets, and only
namespaces have attributes that can be set. -/
def assign : Nat → Target → Value → Run Unit
  | 0, _, _ => throw .tooDeep
  | fuel + 1, target, value => do
    match target with
    | .name name => Run.store name value
    | .attribute parent name =>
      match ← evaluate fuel parent with
      | .space id => Run.writeSpace id name value
      | _ => throw .notAssignable
    | .list targets =>
      match (← Run.settle value).parts? with
      | none => throw .notIterable
      | some items =>
        if items.length != targets.length then
          throw .wrongItemCount
        (targets.zip items).forM fun (target, item) => assign fuel target item
termination_by structural fuel => fuel

def rounds : Nat → Bool → Target → List Node → List Value → Bool → Run String
  | 0, _, _, _, _, _ => throw .tooDeep
  | fuel + 1, recursive, target, body, items, sized => do
    let id ← Run.freshLoop
    let depth ← Run.loopDepth
    let length := if sized then some items.length else none
    let again := if recursive then some (target, body) else none
    let following := items.tail ++ [.undefined]
    Run.inFrame { loop := some ⟨⟨id, 0, length, depth⟩, .undefined, .undefined, true, again⟩ } do
      let (text, _, _) ← (items.zip following).foldlM
        (fun ((text, index, previous) : String × Nat × Value) (item, next) => do
          Run.startRound ⟨⟨id, index, length, depth⟩, previous, next, true, again⟩
          assign fuel target item
          return (text ++ (← renderNodes fuel body), index + 1, item)) ("", 0, .undefined)
      return text
termination_by structural fuel => fuel

def chosenItems : Nat → Target → Expr → List Value → Run (List Value)
  | 0, _, _, _ => throw .tooDeep
  | fuel + 1, target, condition, items => do
    let depth ← Run.loopDepth
    let looping : Looping := ⟨⟨0, 0, none, depth⟩, .undefined, .undefined, false, none⟩
    Run.inFrame { loop := some looping } do
      items.filterM fun item => do
        Run.startRound looping
        assign fuel target item
        return (← settledValue fuel condition).isTrue
termination_by structural fuel => fuel

def enterLoop : Nat → List Value → Run Value
  | 0, _ => throw .tooDeep
  | fuel + 1, arguments => do
    match ← Run.loop?, arguments with
    | some ⟨_, _, _, _, some (target, body)⟩, [argument] =>
      let value ← Run.settle argument
      let items ← Arguments.items value
      Run.captured (← rounds fuel true target body items value.isSized)
    | _, _ => throw .notCallable
termination_by structural fuel => fuel

def runBlock : Nat → List Node → Run String
  | 0, _ => throw .tooDeep
  | fuel + 1, body => Run.inFrame {} (renderNodes fuel body)
termination_by structural fuel => fuel

def filteredBody : Nat → List FilterCall → List Node → Run Value
  | 0, _, _ => throw .tooDeep
  | fuel + 1, filters, body => do
    let text ← renderNodes fuel body
    filters.foldlM (applyFilterCall fuel) (← Run.captured text)
termination_by structural fuel => fuel

def renderNodes : Nat → List Node → Run String
  | 0, _ => throw .tooDeep
  | fuel + 1, nodes =>
    nodes.foldlM (fun text node => do return text ++ (← renderNode fuel node)) ""
termination_by structural fuel => fuel

def renderNode : Nat → Node → Run String
  | 0, _ => throw .tooDeep
  | fuel + 1, node => do
    match node with
    | .text text => return text
    | .print value => Run.shown (← evaluate fuel value)
    | .set target value =>
      assign fuel target (← evaluate fuel value)
      return ""
    | .capture target filters body =>
      assign fuel target (← filteredBody fuel filters body)
      return ""
    | .branch condition yes no =>
      if (← settledValue fuel condition).isTrue then renderNodes fuel yes else renderNodes fuel no
    | .loop target source condition recursive body otherwise =>
      let value ← settledValue fuel source
      let all ← Arguments.items value
      let items ← match condition with
        | some condition => chosenItems fuel target condition all
        | none => pure all
      if items.isEmpty then renderNodes fuel otherwise
      else rounds fuel recursive target body items (condition.isSome || value.isSized)
    | .scope bindings body =>
      Run.inFrame {} do
        bindings.forM fun (target, value) => do assign fuel target (← evaluate fuel value)
        renderNodes fuel body
    | .escape mode body =>
      let escaping ← escapingOf (← settledValue fuel mode)
      Run.withEscaping escaping (renderNodes fuel body)
    | .filter filters body => Run.shown (← filteredBody fuel filters body)
    | .block _ body => runBlock fuel body
    | .macroDef name parameters body =>
      Run.store name (← procedure name parameters body)
      return ""
    | .callBlock callee arguments parameters body =>
      let caller ← procedure "caller" parameters body
      Run.shown (← evaluateCall fuel callee arguments (some caller))
    | .run call =>
      let _ ← evaluate fuel call
      return ""
    | .insertion template optional =>
      insertNothing (← settledValue fuel template) optional
      return ""
    | .parent template => throw (.unknownTemplate (← settledValue fuel template).display)
termination_by structural fuel => fuel

end

/-- Fuel for a template: calls are nested less deep than frames, and between two calls no more steps
are nested than the source has characters, a few for each of them. -/
def fuelFor (source : String) : Nat := 4 * (Run.maxFrames + 1) * (source.length + 20)

def contextOf : Plain → Bindings
  | .object entries => entries.map fun (name, value) => (name, .ofPlain value)
  | _ => []

def render (source : String) (context : Plain) : Except Fault String := do
  let document ← parse source
  let machine := Machine.start (contextOf context) document.blocks
  let (text, _) ← (renderNodes (fuelFor source) document.nodes).run machine
  return text

end SchemaGo.Template
