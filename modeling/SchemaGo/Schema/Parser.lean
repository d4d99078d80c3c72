import SchemaGo.Schema.Declaration
import SchemaGo.Schema.Token

/-!
# Reading schemas

A schema source as declarations.  Reading checks the form of the source only; what its names mean is
decided when it is linked.
-/

namespace SchemaGo.Schema

abbrev Parser := StateT (List Token) Option

namespace Parser

/-! ## Tokens -/

def peek : Parser (Option Lexeme) := do return (← get).head?.map (·.lexeme)

def next : Parser Lexeme := do
  match ← get with
  | [] => failure
  | token :: rest =>
    set rest
    return token.lexeme

def comment : Parser (Option String) := do
  return (← get).head?.bind fun token => leadingComment token.trivia

def atEnd : Parser Bool := do return (← get).isEmpty

def sees (lexeme : Lexeme) : Parser Bool := do return (← peek) == some lexeme

def takes (lexeme : Lexeme) : Parser Bool := do
  if ← sees lexeme then
    let _ ← next
    return true
  else return false

def expect (lexeme : Lexeme) : Parser Unit := do
  if ← takes lexeme then return else failure

def mark (c : Char) : Parser Unit := expect (.mark c)

def takesMark (c : Char) : Parser Bool := takes (.mark c)

def takesWord (word : String) : Parser Bool := takes (.word word)

def word : Parser String := do
  match ← next with
  | .word text => return text
  | _ => failure

def integer : Parser Nat := do
  match ← next with
  | .integer value => return value
  | _ => failure

/-! ## Repetition -/

def stepsUntil {σ : Type} (stop : Parser Bool) (step : σ → Parser σ) : Nat → σ → Parser σ
  | 0, _ => failure
  | fuel + 1, state => do
    if ← stop then return state
    else stepsUntil stop step fuel (← step state)

def foldUntil {σ : Type} (stop : Parser Bool) (step : σ → Parser σ) (state : σ) : Parser σ := do
  stepsUntil stop step ((← get).length + 1) state

def itemsUntil {α : Type} (close : Char) (item : Parser (List α)) : Parser (List α) :=
  foldUntil (takesMark close) (fun items => do return items ++ (← item)) []

def separated {α : Type} (item : Parser α) : Parser (List α) := do
  let first ← item
  foldUntil (do return !(← sees (.mark ','))) (fun items => do
    mark ','
    return items ++ [← item]) [first]

/-! ## Names -/

def dottedName : Parser String := do
  let first ← word
  foldUntil (do return !(← sees (.mark '.'))) (fun name => do
    mark '.'
    return name ++ "." ++ (← word)) first

def typeName : Parser String := do
  if ← takesMark '.' then return "." ++ (← dottedName)
  else dottedName

/-! ## Constants -/

def literal : Parser Bytes := do
  match ← next with
  | .text bytes => return bytes
  | _ => failure

def texts : Parser Bytes := do
  let first ← literal
  foldUntil (do
      match ← peek with
      | some (.text _) => return false
      | _ => return true)
    (fun bytes => do return bytes ++ (← literal)) first

def quoted : Parser String := do
  match Text.Utf8.decode (← texts) with
  | .ok text => return text
  | .error _ => failure

def scalarConstant : Parser Constant := do
  let negative ← takesMark '-'
  match ← peek with
  | some (.text _) => if negative then failure else return .text (← texts)
  | _ =>
    match ← next with
    | .word text => return .word negative text
    | .integer value => return .integer negative value
    | .float value => return .float negative value
    | _ => failure

def fieldKey : Parser FieldKey := do
  if ← takesMark '[' then
    let name ← dottedName
    if ← takesMark '/' then
      let type ← dottedName
      mark ']'
      return .address name type
    else
      mark ']'
      return .extension name
  else return .name (← word)

mutual

def aggregateValue : Nat → Parser Constant
  | 0 => failure
  | fuel + 1 => do
    if ← takesMark '\x7b' then return .aggregate (← aggregateFields fuel '\x7d')
    else if ← takesMark '<' then return .aggregate (← aggregateFields fuel '>')
    else scalarConstant

def aggregateFields : Nat → Char → Parser (List (FieldKey × Constant))
  | 0, _ => failure
  | fuel + 1, close => itemsUntil close (do
    let key ← fieldKey
    let hasColon ← takesMark ':'
    let value ← aggregateItem fuel hasColon
    if !(← takesMark ',') then
      let _ ← takesMark ';'
    return [(key, value)])

/-- A value or a list of values.  Only messages may follow a name without a colon. -/
def aggregateItem : Nat → Bool → Parser Constant
  | 0, _ => failure
  | fuel + 1, hasColon => do
    if !hasColon && !(← sees (.mark '\x7b')) && !(← sees (.mark '<')) then failure
    if ← takesMark '[' then
      if ← takesMark ']' then return .list []
      else
        let items ← separated (aggregateValue fuel)
        mark ']'
        return .list items
    else aggregateValue fuel

end

/-- The tokens up to the brace that closes `depth` braces and one more, that brace included, and
what follows it. -/
def splitAggregate : Nat → List Token → Option (List Token × List Token)
  | _, [] => none
  | depth, token :: rest =>
    match token.lexeme, depth with
    | .mark '\x7d', 0 => some ([token], rest)
    | lexeme, depth =>
      let depth := match lexeme with
        | .mark '\x7b' => depth + 1
        | .mark '\x7d' => depth - 1
        | _ => depth
      (splitAggregate depth rest).map fun (inside, rest) => (token :: inside, rest)

def aggregate : Parser Constant := do
  match splitAggregate 0 (← get) with
  | none => failure
  | some (inside, rest) =>
    set rest
    return match (aggregateFields (2 * inside.length + 2) '\x7d').run inside with
      | some (fields, []) => .aggregate fields
      | _ => .malformed

def constant : Parser Constant := do
  if ← takesMark '\x7b' then aggregate else scalarConstant

/-! ## Options -/

def optionPart : Parser OptionPart := do
  if ← takesMark '(' then
    let name ← typeName
    mark ')'
    return ⟨name, true⟩
  else return ⟨← word, false⟩

def optionPath : Parser (List OptionPart) := do
  let first ← optionPart
  foldUntil (do return !(← sees (.mark '.'))) (fun path => do
    mark '.'
    return path ++ [← optionPart]) [first]

def optionSetting (comment : Option String) : Parser OptionDecl := do
  let path ← optionPath
  mark '='
  return ⟨path, ← constant, comment⟩

def optionStatement (comment : Option String) : Parser OptionDecl := do
  let option ← optionSetting comment
  mark ';'
  return option

def fieldOptions : Parser (List OptionDecl) := do
  if ← takesMark '[' then
    let options ← separated (optionSetting none)
    mark ']'
    return options
  else return []

/-! ## Fields -/

/-- The words for scalars are no names of other types, unless a dot leads them. -/
def baseType : Parser BaseDecl := do
  let kind := match ← peek with
    | some (.word text) => ScalarKind.ofName? text
    | _ => none
  match kind with
  | some kind =>
    let _ ← next
    return .scalar kind
  | none => return .named (← typeName)

def fieldLabel : Parser (Option Cardinality) := do
  if ← takesWord "optional" then return some .optional
  else if ← takesWord "required" then return some .required
  else if ← takesWord "repeated" then return some .repeated
  else return none

def fieldTail (label : Option Cardinality) (type : BaseDecl) (oneof : Option Nat)
    (comment : Option String) : Parser FieldDecl := do
  let name ← word
  mark '='
  let number ← integer
  let options ← fieldOptions
  mark ';'
  return { label, type := .base type, name, number, options, oneof, comment }

def pascalCase (raise : Bool) : List Char → List Char
  | [] => []
  | c :: rest =>
    if c = '_' then pascalCase true rest
    else (if raise then c.toUpper else c) :: pascalCase false rest

def entryName (field : String) : String :=
  String.ofList (pascalCase true field.toList) ++ "Entry"

def entryField (name : String) (number : Nat) (type : BaseDecl) : FieldDecl :=
  { label := some .optional, type := .base type, name, number, options := [], oneof := none
    comment := none }

def entryMessage (field : String) (key : ScalarKind) (value : BaseDecl) : MessageDecl :=
  .mk { MessageParts.empty (entryName field) with
    fields := [entryField "key" 1 (.scalar key), entryField "value" 2 value]
    isMapEntry := true } []

def mapField (comment : Option String) : Parser (FieldDecl × MessageDecl) := do
  mark '<'
  match ← baseType with
  | .named _ => failure
  | .scalar key =>
    mark ','
    let value ← baseType
    mark '>'
    let field ← fieldTail none value none comment
    return ({ field with type := .map key value (entryName field.name) },
      entryMessage field.name key value)

/-! ## Ranges -/

def number (signed : Bool) : Parser Int := do
  if signed && (← takesMark '-') then return -(← integer : Int) else return (← integer : Int)

def numberRange (signed : Bool) : Parser RangeDecl := do
  let first ← number signed
  if ← takesWord "to" then
    if ← takesWord "max" then return ⟨first, none⟩
    else return ⟨first, some (← number signed)⟩
  else return ⟨first, some first⟩

def reserved (signed : Bool) : Parser (List RangeDecl ⊕ List String) := do
  match ← peek with
  | some (.text _) =>
    let names ← separated quoted
    mark ';'
    return .inr names
  | _ =>
    let ranges ← separated (numberRange signed)
    mark ';'
    return .inl ranges

/-! ## Enums -/

def remark (path : SourcePath) (comment : Option String) : List Remark :=
  match comment with
  | some text => [⟨path, text⟩]
  | none => []

def enumItem (enum : EnumDecl) : Parser EnumDecl := do
  let comment ← comment
  if ← takesMark ';' then return enum
  let first ← word
  if first == "option" then
    return { enum with options := enum.options ++ [← optionStatement comment] }
  else if first == "reserved" then
    match ← reserved true with
    | .inl ranges => return { enum with
        reservedRanges := enum.reservedRanges ++ ranges
        remarks := enum.remarks ++ remark [4] comment }
    | .inr names => return { enum with
        reservedNames := enum.reservedNames ++ names
        remarks := enum.remarks ++ remark [5] comment }
  else
    mark '='
    let number ← number true
    let options ← fieldOptions
    mark ';'
    return { enum with values := enum.values ++ [⟨first, number, options, comment⟩] }

def enumDecl (comment : Option String) : Parser EnumDecl := do
  let name ← word
  mark '\x7b'
  foldUntil (takesMark '\x7d') enumItem
    { name, values := [], reservedRanges := [], reservedNames := [], options := [], comment
      remarks := [] }

/-! ## Messages -/

structure Body where
  parts : MessageParts
  nested : List MessageDecl

def Body.toDecl (body : Body) : MessageDecl := .mk body.parts body.nested

def Body.addField (body : Body) (field : FieldDecl) : Body :=
  { body with parts := { body.parts with fields := body.parts.fields ++ [field] } }

def Body.addMessage (body : Body) (message : MessageDecl) : Body :=
  { body with nested := body.nested ++ [message] }

def startsUpper (name : String) : Bool := name.toList.head?.any Char.isUpper

mutual

def messageBody : Nat → Body → Parser MessageDecl
  | 0, _ => failure
  | fuel + 1, body => do
    return (← foldUntil (takesMark '\x7d') (messageItem fuel) body).toDecl

/-- A group after the word that starts it.  Its field takes the name in small letters. -/
def group : Nat → Option Cardinality → Option Nat → Option String →
    Parser (FieldDecl × MessageDecl)
  | 0, _, _, _ => failure
  | fuel + 1, label, oneof, comment => do
    let name ← word
    if !startsUpper name then failure
    mark '='
    let number ← integer
    let options ← fieldOptions
    mark '\x7b'
    let message ← messageBody fuel ⟨{ MessageParts.empty name with comment }, []⟩
    return ({ label, type := .group name, name := String.ofList (name.toList.map Char.toLower)
              number, options, oneof, comment := none }, message)

def field : Nat → Option Nat → Option String → Parser (FieldDecl × List MessageDecl)
  | 0, _, _ => failure
  | fuel + 1, oneof, comment => do
    let label ← fieldLabel
    if ← sees (.word "map") then failure
    if ← takesWord "group" then
      let (field, message) ← group fuel label oneof comment
      return (field, [message])
    else
      let type ← baseType
      return (← fieldTail label type oneof comment, [])

def extendDecl : Nat → Option String → Parser (ExtendDecl × List MessageDecl)
  | 0, _ => failure
  | fuel + 1, comment => do
    let extendee ← typeName
    mark '\x7b'
    let items ← itemsUntil '\x7d' (do
      let comment ← Parser.comment
      if ← takesMark ';' then return [] else return [← field fuel none comment])
    return (⟨extendee, items.map (·.1), comment⟩, items.flatMap (·.2))

def oneofItem : Nat → Nat → OneofDecl × Body → Parser (OneofDecl × Body)
  | 0, _, _ => failure
  | fuel + 1, index, (oneof, body) => do
    let comment ← Parser.comment
    if ← takesMark ';' then return (oneof, body)
    else if ← takesWord "option" then
      return ({ oneof with options := oneof.options ++ [← optionStatement comment] }, body)
    else
      let (field, messages) ← field fuel (some index) comment
      return (oneof, { body.addField field with nested := body.nested ++ messages })

def messageItem : Nat → Body → Parser Body
  | 0, _ => failure
  | fuel + 1, body => do
    let comment ← Parser.comment
    let parts := body.parts
    if ← takesMark ';' then return body
    else if ← takesWord "option" then
      return { body with
        parts := { parts with options := parts.options ++ [← optionStatement comment] } }
    else if ← takesWord "message" then
      let name ← word
      mark '\x7b'
      return body.addMessage (← messageBody fuel ⟨{ MessageParts.empty name with comment }, []⟩)
    else if ← takesWord "enum" then
      return { body with parts := { parts with enums := parts.enums ++ [← enumDecl comment] } }
    else if ← takesWord "extend" then
      let (extension, messages) ← extendDecl fuel comment
      return { parts := { parts with extensions := parts.extensions ++ [extension] }
               nested := body.nested ++ messages }
    else if ← takesWord "extensions" then
      let ranges ← separated (numberRange false)
      let options ← fieldOptions
      mark ';'
      return { body with parts := { parts with
        extensionRanges := parts.extensionRanges ++ ranges.map (⟨·, options⟩)
        remarks := parts.remarks ++ remark [5] comment } }
    else if ← takesWord "reserved" then
      match ← reserved false with
      | .inl ranges => return { body with parts := { parts with
          reservedRanges := parts.reservedRanges ++ ranges
          remarks := parts.remarks ++ remark [9] comment } }
      | .inr names => return { body with parts := { parts with
          reservedNames := parts.reservedNames ++ names
          remarks := parts.remarks ++ remark [10] comment } }
    else if ← takesWord "oneof" then
      let name ← word
      mark '\x7b'
      let (oneof, body) ← foldUntil (takesMark '\x7d')
        (oneofItem fuel parts.oneofs.length) (⟨name, [], comment⟩, body)
      return { body with parts := { body.parts with oneofs := body.parts.oneofs ++ [oneof] } }
    else if ← takesWord "map" then
      let (field, entry) ← mapField comment
      return (body.addField field).addMessage entry
    else
      let (field, messages) ← field fuel none comment
      return { body.addField field with nested := body.nested ++ messages }

end

/-! ## Services -/

def streamType : Parser (Bool × String) := do
  mark '('
  let streaming ← takesWord "stream"
  let name ← typeName
  mark ')'
  return (streaming, name)

def methodOption : Parser (List OptionDecl) := do
  let comment ← comment
  if ← takesMark ';' then return []
  else
    expect (.word "option")
    return [← optionStatement comment]

def serviceItem (service : ServiceDecl) : Parser ServiceDecl := do
  let comment ← comment
  if ← takesMark ';' then return service
  else if ← takesWord "option" then
    return { service with options := service.options ++ [← optionStatement comment] }
  else
    expect (.word "rpc")
    let name ← word
    let (clientStreaming, input) ← streamType
    expect (.word "returns")
    let (serverStreaming, output) ← streamType
    let options ← if ← takesMark ';' then pure [] else do
      mark '\x7b'
      itemsUntil '\x7d' methodOption
    return { service with methods := service.methods ++
      [{ name, input, output, clientStreaming, serverStreaming, options, comment }] }

/-! ## Files -/

def isImportName (name : String) : Bool :=
  !name.toList.contains '\\' &&
    (Text.splitOn '/' name).all fun segment =>
      !segment.isEmpty && segment != "." && segment != ".."

def importKind : Parser ImportKind := do
  if ← takesWord "public" then return .forward
  else if ← takesWord "weak" then return .weak
  else return .plain

def importDecl (comment : Option String) : Parser ImportDecl := do
  let kind ← importKind
  let name ← quoted
  mark ';'
  if isImportName name then return ⟨name, kind, comment⟩ else failure

def fileItem (file : FileDecl) : Parser FileDecl := do
  let comment ← comment
  let fuel := 2 * (← get).length + 2
  if ← takesMark ';' then return file
  match ← word with
  | "package" =>
    let name ← dottedName
    mark ';'
    if file.package.isSome then failure
    else return { file with package := some name, remarks := file.remarks ++ remark [2] comment }
  | "import" => return { file with imports := file.imports ++ [← importDecl comment] }
  | "option" => return { file with options := file.options ++ [← optionStatement comment] }
  | "message" =>
    let name ← word
    mark '\x7b'
    let message ← messageBody fuel ⟨{ MessageParts.empty name with comment }, []⟩
    return { file with messages := file.messages ++ [message] }
  | "enum" => return { file with enums := file.enums ++ [← enumDecl comment] }
  | "service" =>
    let name ← word
    mark '\x7b'
    let service ← foldUntil (takesMark '\x7d') serviceItem ⟨name, [], [], comment⟩
    return { file with services := file.services ++ [service] }
  | "extend" =>
    let (extension, messages) ← extendDecl fuel comment
    return { file with
      extensions := file.extensions ++ [extension]
      messages := file.messages ++ messages }
  | _ => failure

def dialect : Parser FileDecl := do
  let comment ← comment
  if ← takesWord "syntax" then
    mark '='
    let name ← quoted
    mark ';'
    let file := { FileDecl.empty with remarks := remark [12] comment }
    match name with
    | "proto2" => return { file with dialect := some .proto2 }
    | "proto3" => return { file with dialect := some .proto3 }
    | _ => failure
  else return FileDecl.empty

def file : Parser FileDecl := do foldUntil atEnd fileItem (← dialect)

end Parser

def FileDecl.parse? (source : String) : Option FileDecl :=
  (tokens? source).bind fun tokens => (Parser.file.run tokens).map (·.1)

end SchemaGo.Schema
