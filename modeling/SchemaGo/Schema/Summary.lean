import SchemaGo.Schema.Bundled
import SchemaGo.Schema.Load
import SchemaGo.Text.Json

/-!
# Schema sets

Linked files gathered over several inputs, each file once, and their summary as JSON: what every
file is called, what it imports and what it declares at its top.
-/

namespace SchemaGo.Schema

def addFiles (set : List File) : List File → List File
  | [] => set
  | file :: rest =>
    if set.any fun other => other.name == file.name then addFiles set rest
    else addFiles (set ++ [file]) rest

open SchemaGo.Text

def names (items : List String) : String := Json.array (items.map Json.string)

def importIndices (kind : ImportKind) (imports : List Import) : List Nat :=
  (List.range imports.length).filter fun index =>
    (imports[index]?.map fun i => i.kind == kind).getD false

def numbers (items : List Nat) : String := Json.array (items.map fun n => toString n)

def File.summary (file : File) : String :=
  if Bundled.hasBundledName file.name then Json.object [("name", Json.string file.name)]
  else Json.object [
    ("name", Json.string file.name),
    ("package", Json.string file.package),
    ("syntax", match file.dialect with
      | .proto2 => "null"
      | .proto3 => Json.string "proto3"),
    ("dependency", names (file.imports.map (·.name))),
    ("public", numbers (importIndices .forward file.imports)),
    ("weak", numbers (importIndices .weak file.imports)),
    ("messages", names (file.messages.map fun message => message.info.name)),
    ("enums", names (file.enums.map (·.name))),
    ("services", names (file.services.map (·.name))),
    ("extensions", names (file.extensions.map fun extension => extension.field.name))]

def summarize (files : List File) : String :=
  Json.object [("files", Json.array (files.map File.summary))]

end SchemaGo.Schema
