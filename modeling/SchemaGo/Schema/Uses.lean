import SchemaGo.Diagnostics
import SchemaGo.Schema.Load

/-!
# Uses of imports

Which files a linked file refers to, and the warnings that follow from it.
-/

namespace SchemaGo.Schema

def optionUses (options : Option OptionSet) : List String :=
  match options with
  | none => []
  | some options => options.custom.map fun (extension, _, _) => extension.file

/-- The file that declares the type of a field, which for a map is that of its entries. -/
def typeUses (type : FieldType) : List String :=
  match type.element.definition? with
  | none => []
  | some definition => [definition.file]

def fieldUses (field : Field) : List String := typeUses field.type ++ optionUses field.options

def extensionUses (extension : Extension) : List String :=
  extension.extendee.file :: typeUses extension.field.type

def messageUses (info : MessageInfo) : List String :=
  optionUses info.options ++ info.fields.flatMap fieldUses ++
    info.extensions.flatMap extensionUses ++ info.enums.flatMap fun enum => optionUses enum.options

def methodUses (method : Method) : List String :=
  [method.input.file, method.output.file] ++ optionUses method.options

namespace File

def uses (file : File) : List String :=
  optionUses file.options ++ file.allMessages.flatMap messageUses ++
    file.extensions.flatMap extensionUses ++
    file.enums.flatMap (fun enum => optionUses enum.options) ++
    file.services.flatMap fun service =>
      optionUses service.options ++ service.methods.flatMap methodUses

def unusedImports (file : File) : TextSet :=
  let uses := file.uses
  TextSet.ofList ((file.imports.filter fun i =>
    i.kind != .forward && !(i.name ∈ uses)).map (·.name))

def diagnose (file : File) : Diagnostics :=
  let unused := file.unusedImports
  { missingDialect := if file.declaresDialect then [] else [file.name]
    unusedImports := if unused.isEmpty then [] else [(file.name, unused)] }

end File

end SchemaGo.Schema
