import SchemaGo.Config.Basic
import SchemaGo.Go.Source
import SchemaGo.Template.Output

/-!
# Outputs

Every compiled schema file has a primary output, its Go source, and one further output for each
template that its services ask for.
-/

namespace SchemaGo

structure Output where
  path : String
  contents : Bytes
deriving DecidableEq, Repr

inductive OutputKind where
  | primary
  | template (name : String)
deriving DecidableEq, Repr

namespace Ast.File

def outputKinds (file : Ast.File) : List OutputKind :=
  .primary :: file.services.flatMap fun service => service.codeGeneration.map .template

end Ast.File

namespace Config

def emitter (config : Config) : Go.Emitter := .ofImport config.runtimeImport

def primaryPath (config : Config) (file : Ast.File) : String :=
  PathText.join file.filePath (file.fileName ++ config.outputExtension)

def primarySource (config : Config) (file : Ast.File) : String := config.emitter.renderFile file

/-- Renders one output of a file.  Templates see the whole schema, and are read when they are
rendered. -/
def renderOutput (config : Config) (files : FileTree) (ast : Ast) (file : Ast.File) :
    OutputKind → Except TemplateFault Output
  | .primary => .ok ⟨config.primaryPath file, Text.Utf8.encode (config.primarySource file)⟩
  | .template name =>
    match Template.locate name config.templatesDirectory? with
    | .error fault => .error fault
    | .ok path =>
      match Template.renderFile files path ast with
      | .error fault => .error fault
      | .ok contents => .ok ⟨PathText.join file.filePath (Template.outputName name), contents⟩

def fileOutputs (config : Config) (files : FileTree) (ast : Ast) (file : Ast.File) :
    Except TemplateFault (List Output) :=
  file.outputKinds.mapM (config.renderOutput files ast file)

def outputs (config : Config) (files : FileTree) (ast : Ast) :
    Except TemplateFault (List Output) := do
  let outputs ← ast.files.mapM (config.fileOutputs files ast)
  .ok outputs.flatten

end Config

end SchemaGo
