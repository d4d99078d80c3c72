import SchemaGo.FileTree
import SchemaGo.Template.Render

/-!
# Template outputs

A template file rendered against a lowered schema.  Templates with a relative name are looked for
below the template root, and one that renders to nothing but white space is an error.
-/

namespace SchemaGo

inductive TemplateFault where
  | unreadable (path : String) (cause : FileFault)
  | noRoot (template : String)
  | broken (path : String) (cause : Template.Fault)
  | empty (path : String)
deriving DecidableEq, Repr

def TemplateFault.message : TemplateFault → String
  | .unreadable path cause => s!"failed to read template {path}: {cause.message}"
  | .noRoot template => s!"template {template} is relative but no template root is configured"
  | .broken path _ => s!"template {path}"
  | .empty path => s!"template {path} produced no output"

namespace Template

def locate (template : String) (root : Option String) : Except TemplateFault String :=
  if PathText.isAbsolute template then .ok template
  else match root with
    | some root => .ok (PathText.join root template)
    | none => .error (.noRoot template)

/-- The output of a template is named by its file name without the last extension. -/
def outputName (template : String) : String :=
  let name := (PathText.fileName? template).getD template
  String.ofList (Text.dropExtension name.toList)

def renderFile (files : FileTree) (path : String) (ast : Ast) : Except TemplateFault Bytes :=
  match files.readText path with
  | .error cause => .error (.unreadable path cause)
  | .ok source =>
    match render source ast.toPlain with
    | .error cause => .error (.broken path cause)
    | .ok text =>
      if text.toList.all Text.isBlank then .error (.empty path)
      else .ok (Text.Utf8.encode text)

end Template

end SchemaGo
