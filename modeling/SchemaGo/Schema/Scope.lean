import SchemaGo.Schema.Basic
import SchemaGo.Schema.Fault

/-!
# Scopes

The names that schema files define, and how a name in a file is looked up: from the innermost scope
outwards, among the definitions of the file and of what it imports.
-/

namespace SchemaGo.Schema

inductive SymbolKind where
  | package
  | message
  | enum
  | enumValue
  | field
  | oneof
  | extension
  | service
  | method
deriving DecidableEq, Repr

def SymbolKind.isParent : SymbolKind → Bool
  | .package | .message | .enum | .service => true
  | _ => false

def SymbolKind.isType : SymbolKind → Bool
  | .message | .enum => true
  | _ => false

structure Symbol where
  kind : SymbolKind
  file : String
deriving DecidableEq, Repr

abbrev Symbols := List (String × Symbol)

def qualify (scope name : String) : String :=
  if scope.isEmpty then name else scope ++ "." ++ name

/-! ## Definitions -/

def syntheticOneof (field : String) : String :=
  if field.toList.head? == some '_' then "X" ++ field else "_" ++ field

def isMarkedOptional (dialect : Dialect) (field : FieldDecl) : Bool :=
  dialect == .proto3 && field.label == some .optional

def syntheticOneofs (dialect : Dialect) (fields : List FieldDecl) : List String :=
  (fields.filter (isMarkedOptional dialect)).map fun field => syntheticOneof field.name

def enumSymbols (file scope : String) (enum : EnumDecl) : Symbols :=
  (qualify scope enum.name, ⟨.enum, file⟩) ::
    enum.values.map fun value => (qualify scope value.name, ⟨.enumValue, file⟩)

def extensionSymbols (file scope : String) (extension : ExtendDecl) : Symbols :=
  extension.fields.map fun field => (qualify scope field.name, ⟨.extension, file⟩)

/-- Map entries are marked as such already, so their fields are never synthetic. -/
def partsSymbols (file scope : String) (dialect : Dialect) (parts : MessageParts) : Symbols :=
  let inside := qualify scope parts.name
  (inside, ⟨.message, file⟩) ::
    parts.fields.map (fun field => (qualify inside field.name, ⟨.field, file⟩)) ++
    parts.oneofs.map (fun oneof => (qualify inside oneof.name, ⟨.oneof, file⟩)) ++
    (if parts.isMapEntry then [] else
      (syntheticOneofs dialect parts.fields).map fun name =>
        (qualify inside name, ⟨.oneof, file⟩)) ++
    parts.enums.flatMap (enumSymbols file inside) ++
    parts.extensions.flatMap (extensionSymbols file inside)

mutual

def messageSymbols (file scope : String) (dialect : Dialect) : MessageDecl → Symbols
  | .mk parts nested =>
    partsSymbols file scope dialect parts ++
      messagesSymbols file (qualify scope parts.name) dialect nested
termination_by structural message => message

def messagesSymbols (file scope : String) (dialect : Dialect) : List MessageDecl → Symbols
  | [] => []
  | message :: rest =>
    messageSymbols file scope dialect message ++ messagesSymbols file scope dialect rest
termination_by structural messages => messages

end

def serviceSymbols (file scope : String) (service : ServiceDecl) : Symbols :=
  let inside := qualify scope service.name
  (inside, ⟨.service, file⟩) ::
    service.methods.map fun method => (qualify inside method.name, ⟨.method, file⟩)

def packageSymbols (file : String) (package : String) : Symbols :=
  let add := fun (names : List String) (part : String) =>
    names ++ [qualify (names.getLast?.getD "") part]
  (if package.isEmpty then [] else (Text.splitOn '.' package).foldl add []).map fun name =>
    (name, ⟨.package, file⟩)

namespace FileDecl

def packageName (decl : FileDecl) : String := decl.package.getD ""

def actualDialect (decl : FileDecl) : Dialect := decl.dialect.getD .proto2

def symbols (file : String) (decl : FileDecl) : Symbols :=
  let scope := decl.packageName
  packageSymbols file scope ++
    messagesSymbols file scope decl.actualDialect decl.messages ++
    decl.enums.flatMap (enumSymbols file scope) ++
    decl.extensions.flatMap (extensionSymbols file scope) ++
    decl.services.flatMap (serviceSymbols file scope)

end FileDecl

def addSymbols (known : Symbols) : Symbols → Except SchemaFault Symbols
  | [] => .ok known
  | (name, symbol) :: rest =>
    match known.lookup name with
    | none => addSymbols ((name, symbol) :: known) rest
    | some other =>
      if other.kind == .package && symbol.kind == .package then addSymbols known rest
      else .error (.duplicateName name)

/-! ## Resolution -/

structure Scope where
  symbols : Symbols
  visible : List String
deriving Repr

namespace Scope

def find? (scope : Scope) (fullName : String) : Option Symbol :=
  (scope.symbols.lookup fullName).filter fun symbol =>
    symbol.kind == .package || symbol.file ∈ scope.visible

def findKind? (scope : Scope) (accepts : SymbolKind → Bool) (fullName : String) :
    Option (String × Symbol) :=
  ((scope.find? fullName).filter fun symbol => accepts symbol.kind).map fun symbol =>
    (fullName, symbol)

def enclosing (name : String) : List String :=
  let parts := if name.isEmpty then [] else Text.splitOn '.' name
  (List.range (parts.length + 1)).reverse.map fun n => Text.joinWith "." (parts.take n)

/-- Looks a name up from the scopes given.  The first part of a dotted name decides for a scope, and
then the whole name has to be found there. -/
def resolveIn (scope : Scope) (accepts : SymbolKind → Bool) (first name : String) :
    List String → Option (String × Symbol)
  | [] => none
  | parent :: outer =>
    if first == name then
      match scope.findKind? accepts (qualify parent name) with
      | some found => some found
      | none => scope.resolveIn accepts first name outer
    else
      match scope.findKind? SymbolKind.isParent (qualify parent first) with
      | some _ => scope.findKind? accepts (qualify parent name)
      | none => scope.resolveIn accepts first name outer

/-- The definition a name refers to when it is used inside `around`.  A leading dot makes the name
absolute. -/
def resolve? (scope : Scope) (accepts : SymbolKind → Bool) (around name : String) :
    Option (String × Symbol) :=
  match name.toList with
  | '.' :: absolute => scope.findKind? accepts (String.ofList absolute)
  | cs =>
    let first := String.ofList (cs.takeWhile (· != '.'))
    scope.resolveIn accepts first name (enclosing around)

def resolveType (scope : Scope) (accepts : SymbolKind → Bool) (around name : String) :
    Except SchemaFault (TypeRef × SymbolKind) :=
  match scope.resolve? accepts around name with
  | none => .error (.unknownName name)
  | some (fullName, symbol) =>
    .ok (⟨Text.afterLast '.' fullName, fullName, symbol.file⟩, symbol.kind)

end Scope

end SchemaGo.Schema
