import SchemaGo.Schema.Bundled
import SchemaGo.Schema.Link

/-!
# Loading schemas

A schema file is linked after the files it imports, which are looked up, read and linked in turn.
Files that are not found may be bundled.
-/

namespace SchemaGo.Schema

structure Loaded where
  pool : Pool
  symbols : Symbols

def Loaded.empty : Loaded := ⟨⟨[]⟩, []⟩

/-! ## Sources -/

def declarations (name source : String) : Except LinkFault FileDecl :=
  match FileDecl.parse? source with
  | none => .error (.invalid name .malformed)
  | some decl =>
    match decl.checkForm with
    | .ok () => .ok decl
    | .error fault => .error (.invalid name fault)

def readDeclarations (lookup : Lookup) (files : FileTree) (name : String) :
    Except LinkFault FileDecl :=
  match lookup.readSource files name with
  | .ok source => declarations name source
  | .error fault =>
    if Bundled.hasBundledName name then
      match Bundled.files.lookup name with
      | some decl => .ok decl
      | none => .error (.notFound name)
    else .error (.unreadable fault)

/-! ## Visibility -/

def File.forwarded (file : File) : List Nat :=
  (List.range file.imports.length).filter fun index =>
    (file.imports[index]?.map fun i => i.kind == .forward).getD false

/-- What a file hands on to its importers, itself first.  The positions of forwarded imports count
the linked files in the order of their linking. -/
def forwardedBy (pool : Pool) : Nat → File → List String
  | 0, file => [file.name]
  | fuel + 1, file =>
    file.name :: file.forwarded.flatMap fun index =>
      match pool.files[index]? with
      | none => []
      | some other => forwardedBy pool fuel other

def visibleFrom (pool : Pool) (name : String) (decl : FileDecl) : List String :=
  name :: decl.imports.flatMap fun i =>
    match pool.file? i.name with
    | none => []
    | some file => forwardedBy pool pool.files.length file

/-! ## Linking in order -/

def linkAlone (name : String) (decl : FileDecl) : List File :=
  match addSymbols [] (decl.symbols name) with
  | .error _ => []
  | .ok symbols =>
    match linkFile [] ⟨[]⟩ ⟨symbols, [name]⟩ name decl with
    | .ok file => [file]
    | .error _ => []

def builtinDescriptor : List File :=
  linkAlone (Bundled.directory ++ "descriptor.proto") Bundled.descriptor

def Loaded.add (loaded : Loaded) (name : String) (decl : FileDecl) :
    Except SchemaFault Loaded := do
  if !decide (decl.imports.map (·.name)).Nodup then throw (.duplicateImport name)
  let symbols ← addSymbols loaded.symbols (decl.symbols name)
  let scope : Scope := ⟨symbols, visibleFrom loaded.pool name decl⟩
  let file ← linkFile builtinDescriptor loaded.pool scope name decl
  .ok ⟨⟨loaded.pool.files ++ [file]⟩, symbols⟩

def loadBy (lookup : Lookup) (files : FileTree)
    (inner : List String → String → Loaded → Except LinkFault Loaded) (stack : List String)
    (name : String) (loaded : Loaded) : Except LinkFault Loaded :=
  if name ∈ stack then .error (.cycle (stack.reverse ++ [name]))
  else if (loaded.pool.file? name).isSome then .ok loaded
  else
    match readDeclarations lookup files name with
    | .error fault => .error fault
    | .ok decl =>
      match decl.imports.foldlM (fun loaded declared =>
          inner (name :: stack) declared.name loaded) loaded with
      | .error fault => .error fault
      | .ok loaded =>
        match loaded.add name decl with
        | .ok loaded => .ok loaded
        | .error fault => .error (.invalid name fault)

def load (lookup : Lookup) (files : FileTree) : Nat → List String → String → Loaded →
    Except LinkFault Loaded
  | 0, _, name, _ => .error (.notFound name)
  | fuel + 1, stack, name, loaded =>
    loadBy lookup files (load lookup files fuel) stack name loaded

/-- Imports that wait for each other have different names, and a file answers to few names. -/
def loadDepth (files : FileTree) : Nat := 4 * (files.entries.length + Bundled.files.length + 1)

structure Linked where
  pool : Pool
  file : File
  directory : String

/-- Links the file at a path.  The file is loaded under the name that its own name leads to, and
asked for by its own name afterwards. -/
def link (files : FileTree) (includeDirectory path : String) : Except LinkFault Linked :=
  let (lookup, name) := Lookup.ofFile path includeDirectory
  match load lookup files (loadDepth files) [] (lookup.nameOf name) .empty with
  | .error fault => .error fault
  | .ok loaded =>
    match loaded.pool.file? name with
    | some file => .ok ⟨loaded.pool, file, lookup.directory⟩
    | none => .error (.missing name)

end SchemaGo.Schema
