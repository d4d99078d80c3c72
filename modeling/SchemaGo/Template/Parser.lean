import SchemaGo.Template.Token

/-!
# Reading templates

Expressions bind, from loose to tight: a choice `a if c else b`, `or`, `and`, `not`, comparisons,
sums, `~`, products, `**`, and last the sign, attributes, filters and tests.  Statements and
expressions may be nested to a certain depth only.
-/

namespace SchemaGo.Template

abbrev Reader := StateT (List Token) (Except Fault)

namespace Reader

/-! ## Tokens -/

def malformed {α : Type} : Reader α := throw .malformed

def peek : Reader (Option Token) := do return (← get).head?

def next : Reader Token := do
  match ← get with
  | [] => malformed
  | token :: rest =>
    set rest
    return token

def atEnd : Reader Bool := do return (← get).isEmpty

def sees (token : Token) : Reader Bool := do return (← peek) == some token

def takes (token : Token) : Reader Bool := do
  if ← sees token then
    let _ ← next
    return true
  else return false

def seesMark (mark : String) : Reader Bool := sees (.symbol mark)

def takesMark (mark : String) : Reader Bool := takes (.symbol mark)

def takesWord (word : String) : Reader Bool := takes (.name word)

def mark (mark : String) : Reader Unit := do
  if ← takesMark mark then return else malformed

def word (word : String) : Reader Unit := do
  if ← takesWord word then return else malformed

def name : Reader String := do
  match ← next with
  | .name name => return name
  | _ => malformed

def stepsUntil {σ : Type} (stop : Reader Bool) (step : σ → Reader σ) : Nat → σ → Reader σ
  | 0, _ => malformed
  | fuel + 1, state => do
    if ← stop then return state
    else stepsUntil stop step fuel (← step state)

def foldUntil {σ : Type} (stop : Reader Bool) (step : σ → Reader σ) (state : σ) : Reader σ := do
  stepsUntil stop step ((← get).length + 1) state

def itemsUntil {α : Type} (close : String) (item : Reader α) : Reader (List α) :=
  foldUntil (takesMark close) (fun items => do
    if !items.isEmpty then
      mark ","
    if ← seesMark close then return items
    else return items ++ [← item]) []

/-! ## Depth -/

/-- Expressions, their innermost parts and statements count. -/
def maxDepth : Nat := 150

def deeper (depth : Nat) : Reader Nat :=
  if depth < maxDepth then return depth + 1 else throw .tooDeep

/-! ## Operators -/

def operatorAt (level : Nat) : Token → Option Operator
  | .symbol "+" => if level = 0 then some .add else none
  | .symbol "-" => if level = 0 then some .subtract else none
  | .symbol "~" => if level = 1 then some .concat else none
  | .symbol "*" => if level = 2 then some .multiply else none
  | .symbol "/" => if level = 2 then some .divide else none
  | .symbol "//" => if level = 2 then some .floorDivide else none
  | .symbol "%" => if level = 2 then some .remainder else none
  | .symbol "**" => if level = 3 then some .power else none
  | _ => none

def tightLevel : Nat := 4

def operator? (level : Nat) : Reader (Option Operator) := do
  match (← peek).bind (operatorAt level) with
  | none => return none
  | some operator =>
    let _ ← next
    return some operator

def comparisonOf : Token → Option Comparison
  | .symbol "==" => some .equal
  | .symbol "!=" => some .unequal
  | .symbol "<" => some .less
  | .symbol "<=" => some .atMost
  | .symbol ">" => some .greater
  | .symbol ">=" => some .atLeast
  | .name "in" => some .member
  | _ => none

def comparison? : Reader (Option Comparison) := do
  if ← takesWord "not" then
    word "in"
    return some .nonMember
  match (← peek).bind comparisonOf with
  | none => return none
  | some comparison =>
    let _ ← next
    return some comparison

/-! ## Expressions -/

def constant? (name : String) : Option Literal :=
  match name with
  | "true" | "True" => some (.bool true)
  | "false" | "False" => some (.bool false)
  | "none" | "None" => some .null
  | _ => none

def texts (first : String) : Reader String :=
  foldUntil (do
      match ← peek with
      | some (.text _) => return false
      | _ => return true)
    (fun text => do
      match ← next with
      | .text more => return text ++ more
      | _ => malformed) first

/-- Whether a test takes what follows as its one argument without parentheses. -/
def startsArgument : Option Token → Bool
  | some (.name word) => !(word ∈ ["and", "or", "else", "is"])
  | some (.integer _) | some (.float _) | some (.text _) => true
  | some (.symbol mark) => mark ∈ ["+", "-", "[", "\x7b"]
  | none => false

def isKeyword : Argument → Bool
  | .keyword .. | .spreadKeywords _ => true
  | _ => false

mutual

def expr : Nat → Nat → Reader Expr
  | 0, _ => malformed
  | fuel + 1, depth => do choice fuel (← deeper depth)

def choice : Nat → Nat → Reader Expr
  | 0, _ => malformed
  | fuel + 1, depth => do
    let yes ← disjunction fuel depth
    foldUntil (do return !(← sees (.name "if"))) (fun yes => do
      word "if"
      let condition ← disjunction fuel depth
      if ← takesWord "else" then
        return .choose condition yes (some (← choice fuel depth))
      else return .choose condition yes none) yes

def disjunction : Nat → Nat → Reader Expr
  | 0, _ => malformed
  | fuel + 1, depth => do
    let left ← conjunction fuel depth
    foldUntil (do return !(← sees (.name "or"))) (fun left => do
      word "or"
      return .or left (← conjunction fuel depth)) left

def conjunction : Nat → Nat → Reader Expr
  | 0, _ => malformed
  | fuel + 1, depth => do
    let left ← negation fuel depth
    foldUntil (do return !(← sees (.name "and"))) (fun left => do
      word "and"
      return .and left (← negation fuel depth)) left

def negation : Nat → Nat → Reader Expr
  | 0, _ => malformed
  | fuel + 1, depth => do
    if ← takesWord "not" then return .not (← negation fuel depth) else comparison fuel depth

def comparison : Nat → Nat → Reader Expr
  | 0, _ => malformed
  | fuel + 1, depth => do
    let first ← operation fuel depth 0
    let rest ← comparisons fuel depth
    return if rest.isEmpty then first else .compare first rest

def comparisons : Nat → Nat → Reader (List (Comparison × Expr))
  | 0, _ => malformed
  | fuel + 1, depth => do
    match ← comparison? with
    | none => return []
    | some comparison =>
      let operand ← operation fuel depth 0
      return (comparison, operand) :: (← comparisons fuel depth)

def operation : Nat → Nat → Nat → Reader Expr
  | 0, _, _ => malformed
  | fuel + 1, depth, level => do
    if level = tightLevel then
      let subject ← signed fuel depth
      let subject ← accesses fuel depth subject
      filters fuel depth subject
    else
      let left ← operation fuel depth (level + 1)
      operands fuel depth level left

def operands : Nat → Nat → Nat → Expr → Reader Expr
  | 0, _, _, _ => malformed
  | fuel + 1, depth, level, left => do
    match ← operator? level with
    | none => return left
    | some operator =>
      let right ← operation fuel depth (level + 1)
      operands fuel depth level (.binary operator left right)

/-- A sign belongs to what follows it alone, before attributes and calls are looked at. -/
def signed : Nat → Nat → Reader Expr
  | 0, _ => malformed
  | fuel + 1, depth => do
    if ← takesMark "-" then return .negate (← signed fuel depth)
    else primary fuel (← deeper depth)

def primary : Nat → Nat → Reader Expr
  | 0, _ => malformed
  | fuel + 1, depth => do
    match ← next with
    | .integer value => return .literal (.int value)
    | .float value => return .literal (.float value)
    | .text value => return .literal (.text (← texts value))
    | .name name =>
      return match constant? name with
        | some value => .literal value
        | none => .name name
    | .symbol "(" => group fuel depth
    | .symbol "[" => return .list (← itemsUntil "]" (expr fuel depth))
    | .symbol "\x7b" => return .map (← itemsUntil "\x7d" (do
        let key ← expr fuel depth
        mark ":"
        return (key, ← expr fuel depth)))
    | .symbol _ => malformed

def group : Nat → Nat → Reader Expr
  | 0, _ => malformed
  | fuel + 1, depth => do
    if ← takesMark ")" then return .list []
    let first ← expr fuel depth
    if ← takesMark ")" then return first
    mark ","
    return .list (first :: (← itemsUntil ")" (expr fuel depth)))

def accesses : Nat → Nat → Expr → Reader Expr
  | 0, _, _ => malformed
  | fuel + 1, depth, subject => do
    if ← takesMark "." then
      match ← next with
      | .name name => accesses fuel depth (.attribute subject name)
      | .integer value => accesses fuel depth (.item subject (.literal (.int value)))
      | _ => malformed
    else if ← takesMark "[" then
      accesses fuel depth (← subscript fuel depth subject)
    else if ← seesMark "(" then
      accesses fuel depth (.call subject (← arguments fuel depth))
    else return subject

def subscript : Nat → Nat → Expr → Reader Expr
  | 0, _, _ => malformed
  | fuel + 1, depth, subject => do
    let part : Reader (Option Expr) := do
      if (← seesMark ":") || (← seesMark "]") then return none
      else return some (← expr fuel depth)
    let start ← part
    if ← takesMark ":" then
      let stop ← part
      let step ← if ← takesMark ":" then part else pure none
      mark "]"
      return .slice subject start stop step
    else
      mark "]"
      match start with
      | some index => return .item subject index
      | none => malformed

def arguments : Nat → Nat → Reader (List Argument)
  | 0, _ => malformed
  | fuel + 1, depth => do
    mark "("
    let found ← itemsUntil ")" (argument fuel depth)
    let positional := found.dropWhile fun argument => !isKeyword argument
    if positional.all isKeyword then return found else malformed

def argument : Nat → Nat → Reader Argument
  | 0, _ => malformed
  | fuel + 1, depth => do
    if ← takesMark "**" then return .spreadKeywords (← expr fuel depth)
    else if ← takesMark "*" then return .spread (← expr fuel depth)
    else
      let value ← expr fuel depth
      match value with
      | .name name =>
        if ← takesMark "=" then return .keyword name (← disjunction fuel depth)
        else return .positional value
      | value => return .positional value

def filters : Nat → Nat → Expr → Reader Expr
  | 0, _, _ => malformed
  | fuel + 1, depth, subject => do
    if ← takesMark "|" then
      let name ← name
      let arguments ← optionalArguments fuel depth
      filters fuel depth (.filter name subject arguments)
    else if ← takesWord "is" then
      let negated ← takesWord "not"
      let name ← name
      let arguments ← if !(← seesMark "(") && startsArgument (← peek) then do
          let value ← signed fuel depth
          pure [Argument.positional (← accesses fuel depth value)]
        else optionalArguments fuel depth
      let test := .test name subject arguments
      filters fuel depth (if negated then .not test else test)
    else return subject

def optionalArguments : Nat → Nat → Reader (List Argument)
  | 0, _ => malformed
  | fuel + 1, depth => do
    if ← seesMark "(" then arguments fuel depth else return []

end

/-- Every token is reached through at most two dozen calls. -/
def fuelFor : Reader Nat := do return 24 * (← get).length + 24

def anyExpr (depth : Nat) : Reader Expr := do expr (← fuelFor) depth

def exprWithoutChoice (depth : Nat) : Reader Expr := do disjunction (← fuelFor) depth

def anyArguments (depth : Nat) : Reader (List Argument) := do arguments (← fuelFor) depth

/-! ## Targets -/

def reservedNames : List String :=
  ["true", "True", "false", "False", "none", "None", "loop", "self"]

def freeName : Reader String := do
  let name ← name
  if name ∈ reservedNames then malformed else return name

def dottedTarget : Reader Target := do
  let first ← freeName
  if ← seesMark "." then
    mark "."
    let second ← name
    let (parent, last) ← foldUntil (do return !(← seesMark ".")) (fun (parent, last) => do
      mark "."
      return (Expr.attribute parent last, ← name)) (Expr.name first, second)
    return .attribute parent last
  else return .name first

def endsTargets : Reader Bool := do
  return (← atEnd) || (← seesMark ")") || (← seesMark "=") || (← sees (.name "in"))

def targets (item : Reader Target) : Nat → Reader Target
  | 0 => malformed
  | fuel + 1 => do
    let one : Reader Target := do
      if ← takesMark "(" then
        let inner ← targets item fuel
        mark ")"
        return inner
      else item
    let first ← one
    if ← seesMark "," then
      let items ← foldUntil endsTargets (fun items => do
        mark ","
        if ← endsTargets then return items else return items ++ [← one]) [first]
      return .list items
    else return first

def plainTarget : Reader Target := do targets (do return .name (← freeName)) (← get).length

/-! ## Heads of statements -/

def exprOrList (depth : Nat) : Reader Expr := do
  let first ← anyExpr depth
  if ← seesMark "," then
    let items ← foldUntil atEnd (fun items => do
      mark ","
      if ← atEnd then return items else return items ++ [← anyExpr depth]) [first]
    return .list items
  else return first

def filterChain (depth : Nat) : Reader (List FilterCall) := do
  let call : Reader FilterCall := do
    let name ← name
    return ⟨name, ← if ← seesMark "(" then anyArguments depth else pure []⟩
  let first ← call
  foldUntil (do return !(← seesMark "|")) (fun calls => do
    mark "|"
    return calls ++ [← call]) [first]

def parameters (depth : Nat) : Reader Parameters := do
  let items ← itemsUntil ")" (do
    let name ← freeName
    if ← takesMark "=" then return (name, some (← anyExpr depth)) else return (name, none))
  let defaults := items.dropWhile fun (_, value) => value.isNone
  if defaults.all fun (_, value) => value.isSome then
    return ⟨items.map (·.1), items.filterMap (·.2)⟩
  else malformed

def bindings (depth : Nat) : Reader (List (Target × Expr)) :=
  foldUntil atEnd (fun items => do
    if !items.isEmpty then
      mark ","
    let target ← if ← takesMark "(" then do
        let target ← plainTarget
        mark ")"
        pure target
      else do pure (.name (← freeName))
    mark "="
    return items ++ [(target, ← anyExpr depth)]) []

def loopHead (depth : Nat) : Reader (Target × Expr × Option Expr × Bool) := do
  let target ← plainTarget
  word "in"
  let source ← exprWithoutChoice depth
  let condition ← if ← takesWord "if" then some <$> anyExpr depth else pure none
  return (target, source, condition, ← takesWord "recursive")

def contextWords : Reader Unit := do
  if (← takesWord "with") || (← takesWord "without") then
    word "context"

def insertionHead (depth : Nat) : Reader (Expr × Bool) := do
  let template ← anyExpr depth
  contextWords
  if ← takesWord "ignore" then
    word "missing"
    contextWords
    return (template, true)
  else return (template, false)

def importHead (depth : Nat) : Reader Expr := do
  let template ← anyExpr depth
  word "as"
  let _ ← anyExpr depth
  contextWords
  return template

def fromHead (depth : Nat) : Reader Expr := do
  let template ← anyExpr depth
  word "import"
  let ends : Reader Bool := do
    return (← atEnd) || (← sees (.name "with")) || (← sees (.name "without"))
  let _ ← foldUntil ends (fun (names : List String) => do
    if !names.isEmpty then
      mark ","
    if ← ends then return names
    let name ← freeName
    if ← takesWord "as" then
      let _ ← freeName
    return names ++ [name]) []
  contextWords
  return template

end Reader

/-! ## Statements -/

structure Progress where
  segments : List Segment
  blocks : List (String × List Node)

abbrev Builder := StateT Progress (Except Fault)

structure Place where
  depth : Nat
  inMacro : Bool

namespace Builder

def malformed {α : Type} : Builder α := throw .malformed

def whole {α : Type} (reader : Reader α) (tokens : List Token) : Builder α := do
  match ← (reader.run tokens : Except Fault _) with
  | (value, []) => return value
  | _ => malformed

def nextSegment : Builder (Option Segment) := do
  let progress ← get
  match progress.segments with
  | [] => return none
  | segment :: rest =>
    set { progress with segments := rest }
    return some segment

abbrev Body := List Node × Option (String × List Token)

def closed (body : Body) : Builder (List Node) :=
  match body with
  | (nodes, some (_, [])) => return nodes
  | _ => malformed

def addBlock (name : String) (body : List Node) : Builder Unit :=
  modify fun progress => { progress with blocks := progress.blocks ++ [(name, body)] }

def reserveBlock (name : String) : Builder Unit := do
  if (← get).blocks.any fun (other, _) => other == name then malformed

mutual

def nodesUntil : Nat → Place → List String → Builder Body
  | 0, _, _ => malformed
  | fuel + 1, place, ends => do
    match ← nextSegment with
    | none => return ([], none)
    | some (.text text) => more fuel place ends (.text text)
    | some (.print tokens) => do
      more fuel place ends (.print (← whole (Reader.anyExpr place.depth) tokens))
    | some (.tag (.name word :: tokens)) =>
      if word ∈ ends then return ([], some (word, tokens))
      else
        let depth ← whole (Reader.deeper place.depth) []
        more fuel place ends (← statement fuel { place with depth } word tokens)
    | some (.tag _) => malformed

def more : Nat → Place → List String → Node → Builder Body
  | 0, _, _, _ => malformed
  | fuel + 1, place, ends, node => do
    let (nodes, last) ← nodesUntil fuel place ends
    return (node :: nodes, last)

def bodyUntil : Nat → Place → String → Builder (List Node)
  | 0, _, _ => malformed
  | fuel + 1, place, word => do closed (← nodesUntil fuel place [word])

def statement : Nat → Place → String → List Token → Builder Node
  | 0, _, _, _ => malformed
  | fuel + 1, place, word, tokens => do
    let depth := place.depth
    match word with
    | "if" => branch fuel place tokens
    | "for" =>
      let (target, source, condition, recursive) ← whole (Reader.loopHead depth) tokens
      match ← nodesUntil fuel place ["endfor", "else"] with
      | (body, some ("else", [])) =>
        let otherwise ← bodyUntil fuel place "endfor"
        return .loop target source condition recursive body otherwise
      | body => return .loop target source condition recursive (← closed body) []
    | "set" => setting fuel place tokens
    | "with" =>
      let bindings ← whole (Reader.bindings depth) tokens
      return .scope bindings (← bodyUntil fuel place "endwith")
    | "autoescape" =>
      let mode ← whole (Reader.anyExpr depth) tokens
      return .escape mode (← bodyUntil fuel place "endautoescape")
    | "filter" =>
      let filters ← whole (Reader.filterChain depth) tokens
      return .filter filters (← bodyUntil fuel place "endfilter")
    | "block" => block fuel place tokens
    | "macro" =>
      let (name, parameters) ← whole (do
        let name ← Reader.name
        Reader.mark "("
        return (name, ← Reader.parameters depth)) tokens
      let body ← bodyUntil fuel { place with inMacro := true } "endmacro"
      return .macroDef name parameters body
    | "call" => callBlock fuel place tokens
    | "do" =>
      match ← whole (Reader.anyExpr depth) tokens with
      | .call callee arguments => return .run (.call callee arguments)
      | _ => malformed
    | "include" =>
      let (template, optional) ← whole (Reader.insertionHead depth) tokens
      return .insertion template optional
    | "extends" => return .parent (← whole (Reader.anyExpr depth) tokens)
    | "import" => return .parent (← whole (Reader.importHead depth) tokens)
    | "from" => return .parent (← whole (Reader.fromHead depth) tokens)
    | _ => malformed

def branch : Nat → Place → List Token → Builder Node
  | 0, _, _ => malformed
  | fuel + 1, place, tokens => do
    let condition ← whole (Reader.anyExpr place.depth) tokens
    match ← nodesUntil fuel place ["endif", "else", "elif"] with
    | (yes, some ("elif", tokens)) => return .branch condition yes [← branch fuel place tokens]
    | (yes, some ("else", [])) =>
      return .branch condition yes (← bodyUntil fuel place "endif")
    | (yes, some ("endif", [])) => return .branch condition yes []
    | _ => malformed

def setting : Nat → Place → List Token → Builder Node
  | 0, _, _ => malformed
  | fuel + 1, place, tokens => do
    let depth := place.depth
    let head : Reader (Target × Option (List FilterCall) × Option Expr) := do
      let bare := !(← Reader.seesMark "(")
      let target ← Reader.targets Reader.dottedTarget (← get).length
      if bare && (← Reader.atEnd) then return (target, some [], none)
      else if bare && (← Reader.takesMark "|") then
        return (target, some (← Reader.filterChain depth), none)
      else
        Reader.mark "="
        return (target, none, some (← Reader.exprOrList depth))
    match ← whole head tokens with
    | (target, _, some value) => return .set target value
    | (target, filters, none) =>
      return .capture target (filters.getD []) (← bodyUntil fuel place "endset")

def block : Nat → Place → List Token → Builder Node
  | 0, _, _ => malformed
  | fuel + 1, place, tokens => do
    let name ← whole Reader.name tokens
    if place.inMacro then
      malformed
    reserveBlock name
    addBlock name []
    match ← nodesUntil fuel place ["endblock"] with
    | (body, some (_, last)) =>
      if last == [] || last == [.name name] then
        modify fun progress => { progress with
          blocks := progress.blocks.map fun (other, old) =>
            if other == name then (other, body) else (other, old) }
        return .block name body
      else malformed
    | _ => malformed

def callBlock : Nat → Place → List Token → Builder Node
  | 0, _, _ => malformed
  | fuel + 1, place, tokens => do
    let depth := place.depth
    let (parameters, call) ← whole (do
      let parameters ← if ← Reader.takesMark "(" then Reader.parameters depth
        else pure ⟨[], []⟩
      return (parameters, ← Reader.anyExpr depth)) tokens
    match call with
    | .call callee arguments =>
      let body ← bodyUntil fuel { place with inMacro := true } "endcall"
      return .callBlock callee arguments parameters body
    | _ => malformed

end

end Builder

def parse (source : String) : Except Fault Document := do
  let segments ← segments source
  let start : Progress := ⟨segments, []⟩
  match ← (Builder.nodesUntil (6 * segments.length + 6) ⟨0, false⟩ []).run start with
  | ((nodes, none), progress) => .ok ⟨nodes, progress.blocks⟩
  | _ => .error .malformed

end SchemaGo.Template
