import SchemaGo.Template.Operator

/-!
# The state of a rendering

Variables live in frames, the innermost first: a loop, a scope and a block each have one.  What a
macro keeps of the variables around it, and the namespaces, are stored under numbers, because they
go on changing after a value that refers to them has been made.
-/

namespace SchemaGo.Template

abbrev Bindings := List (String × Value)

def Bindings.set (name : String) (value : Value) : Bindings → Bindings
  | [] => [(name, value)]
  | (other, old) :: rest =>
    if other == name then (name, value) :: rest else (other, old) :: Bindings.set name value rest

/-- A loop in progress.  It has no name while its items are being selected; one that can be entered
again keeps what its items are bound to, and its body. -/
structure Looping where
  state : LoopState
  previous : Value
  next : Value
  isNamed : Bool
  again : Option (Target × List Node)

/-- Variables, a loop if it is the frame of one, the store of the macros that are made here, and the
store of the macro that runs here. -/
structure Frame where
  locals : Bindings := []
  loop : Option Looping := none
  enclosing : Option Nat := none
  enclosed : Option Nat := none

structure Machine where
  context : Bindings
  blocks : List (String × List Node)
  frames : List Frame
  outerDepth : Nat
  stores : Array Bindings
  spaces : Array Bindings
  loops : Nat
  lastSeen : List (Nat × List Value)
  escaping : Bool

def Machine.start (context : Bindings) (blocks : List (String × List Node)) : Machine where
  context := context
  blocks := blocks
  frames := [{}]
  outerDepth := 0
  stores := #[]
  spaces := #[]
  loops := 0
  lastSeen := []
  escaping := false

abbrev Run := StateT Machine (Except Fault)

namespace Run

/-! ## Frames -/

def maxFrames : Nat := 500

def callDepth : Nat := 5

def depth : Run Nat := do
  let machine ← get
  return machine.outerDepth + machine.frames.length

def checkDepth : Run Unit := do
  if maxFrames < (← depth) then
    throw .tooDeep

def inFrame {α : Type} (frame : Frame) (run : Run α) : Run α := do
  checkDepth
  modify fun machine => { machine with frames := frame :: machine.frames }
  let result ← run
  modify fun machine => { machine with frames := machine.frames.tail }
  return result

def inCall {α : Type} (frame : Frame) (run : Run α) : Run α := do
  let outer ← get
  let depth ← depth
  modify fun machine => { machine with frames := [frame], outerDepth := depth + callDepth }
  checkDepth
  let result ← run
  modify fun machine => { machine with frames := outer.frames, outerDepth := outer.outerDepth }
  return result

def modifyTop (f : Frame → Frame) : Run Unit :=
  modify fun machine =>
    match machine.frames with
    | [] => machine
    | frame :: rest => { machine with frames := f frame :: rest }

/-! ## Variables -/

def functionNames : List String := ["range", "dict", "debug", "namespace"]

def storeNamed? (machine : Machine) (store : Option Nat) (name : String) : Option Value :=
  (store.bind fun id => machine.stores[id]?).bind fun bindings => bindings.lookup name

/-- The value of a name in a frame.  What a macro keeps as undefined is looked for further out. -/
def inFrame? (machine : Machine) (name : String) (frame : Frame) : Option Value :=
  match frame.locals.lookup name, frame.loop with
  | some value, _ => some value
  | none, some ⟨state, previous, next, true, _⟩ =>
    if name == "loop" then some (.loop state previous next)
    else none
  | none, _ =>
    (storeNamed? machine frame.enclosed name).filter fun value => !value.isUndefined

def lookup? (name : String) : Run (Option Value) := do
  let machine ← get
  let found := (machine.frames.findSome? (inFrame? machine name)).or (machine.context.lookup name)
  if found.isNone && functionNames.contains name then return some (.function name)
  else return found

def writeStore (id : Nat) (f : Bindings → Bindings) : Run Unit :=
  modify fun machine => { machine with stores := machine.stores.modify id f }

def store (name : String) (value : Value) : Run Unit := do
  match (← get).frames.head?.bind (·.enclosing) with
  | some id => writeStore id (Bindings.set name value)
  | none => pure ()
  modifyTop fun frame => { frame with locals := Bindings.set name value frame.locals }

def enclosing : Run Nat := do
  let machine ← get
  match machine.frames.head?.bind (·.enclosing) with
  | some id => return id
  | none =>
    let id := machine.stores.size
    set { machine with stores := machine.stores.push [] }
    modifyTop fun frame => { frame with enclosing := some id }
    return id

/-- Keeps the values of some names for a macro; what is kept already stays. -/
def enclose (names : List String) : Run Nat := do
  let id ← enclosing
  for name in names do
    if (storeNamed? (← get) (some id) name).isNone then
      let value := (← lookup? name).getD .undefined
      writeStore id (Bindings.set name value)
  return id

/-! ## Loops -/

def loop? : Run (Option Looping) := do return (← get).frames.findSome? (·.loop)

def loopDepth : Run Nat := do
  match ← loop? with
  | some ⟨state, _, _, _, some _⟩ => return state.depth + 1
  | _ => return 0

def freshLoop : Run Nat := do
  let machine ← get
  set { machine with loops := machine.loops + 1 }
  return machine.loops

def startRound (looping : Looping) : Run Unit :=
  modifyTop fun frame => { frame with locals := [], loop := some looping, enclosing := none }

def areNew (loop : Nat) (values : List Value) : Run Bool := do
  let machine ← get
  let same := match machine.lastSeen.lookup loop with
    | some last => (Value.list last).areEqual (.list values)
    | none => false
  if !same then
    set { machine with lastSeen := (loop, values) :: machine.lastSeen }
  return !same

/-! ## Namespaces -/

def makeSpace (entries : Bindings) : Run Value := do
  let machine ← get
  set { machine with spaces := machine.spaces.push entries }
  return .space machine.spaces.size

def writeSpace (id : Nat) (name : String) (value : Value) : Run Unit :=
  modify fun machine =>
    { machine with spaces := machine.spaces.modify id (Bindings.set name value) }

def spaceEntries (machine : Machine) (id : Nat) : Bindings :=
  Value.sortBy (fun left right => Value.compareTexts left.1 right.1) (machine.spaces[id]?.getD [])

def settled (machine : Machine) : Nat → Value → Value
  | 0, value => value
  | fuel + 1, value =>
    let settle := settled machine fuel
    match value with
    | .space id =>
      .map ((spaceEntries machine id).map fun (name, value) => (.ofText name, settle value))
    | .list items => .list (items.map settle)
    | .stream items sized => .stream (items.map settle) sized
    | .map entries => .map (entries.map fun (key, value) => (settle key, settle value))
    | .group key items => .group (settle key) (items.map settle)
    | .keywords entries => .keywords (entries.map fun (name, value) => (name, settle value))
    | value => value

def settleDepth : Nat := 64

def settle (value : Value) : Run Value := do
  let machine ← get
  return if machine.spaces.isEmpty then value else settled machine settleDepth value

/-! ## Text -/

def captured (text : String) : Run Value := do return .text text (← get).escaping

def shown (value : Value) : Run String := do
  let value ← settle value
  return if (← get).escaping then value.escaped else value.display

def withEscaping {α : Type} (escaping : Bool) (run : Run α) : Run α := do
  let outer := (← get).escaping
  modify fun machine => { machine with escaping }
  let result ← run
  modify fun machine => { machine with escaping := outer }
  return result

end Run

end SchemaGo.Template
