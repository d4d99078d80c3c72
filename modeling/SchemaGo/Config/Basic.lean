import SchemaGo.Config.Toml
import SchemaGo.FileTree

/-!
# Configuration

Where the compiler looks for include files and templates, how it names its outputs, and how they
reach the output directory.
-/

namespace SchemaGo

/-- How outputs reach the output directory: each one as soon as it is rendered, or all of them once
everything has been rendered. -/
inductive WriteMode where
  | writeThrough
  | staged
deriving DecidableEq, Repr

def WriteMode.name : WriteMode → String
  | .writeThrough => "write_through"
  | .staged => "staged"

def WriteMode.ofName? (name : String) : Option WriteMode :=
  [WriteMode.writeThrough, .staged].find? fun mode => mode.name == name

structure Config where
  installRoot : String
  templateRoot : Option String
  outputExtension : String
  runtimeImport : String
  writeMode : WriteMode
deriving DecidableEq, Repr

inductive ConfigFault where
  | malformed
  | unreadable (path : String) (cause : FileFault)
deriving DecidableEq, Repr

def ConfigFault.message : ConfigFault → String
  | .malformed => "invalid config"
  | .unreadable path cause => s!"reading config {path}: {cause.message}"

namespace Config

def default : Config :=
  { installRoot := ""
    templateRoot := none
    outputExtension := ".pb.go"
    runtimeImport := "github.com/vedadiyan/protolizer"
    writeMode := .writeThrough }

def ofRoot (installRoot : String) : Config := { default with installRoot }

/-- A write mode is given by its name, or by a table of its name alone with nothing in it. -/
def writeMode? : Toml.Value → Option WriteMode
  | .text name | .table _ [(name, .emptyList)] | .table _ [(name, .table _ [])] =>
    WriteMode.ofName? name
  | _ => none

def set? (config : Config) (key : String) (value : Toml.Value) : Option Config :=
  match key, value with
  | "install_root", .text value => some { config with installRoot := value }
  | "template_root", .text value => some { config with templateRoot := some value }
  | "output_extension", .text value => some { config with outputExtension := value }
  | "runtime_import", .text value => some { config with runtimeImport := value }
  | "write_mode", value => (writeMode? value).map fun mode => { config with writeMode := mode }
  | _, _ => none

def ofSettings? (settings : Toml.Entries) : Option Config :=
  settings.foldlM (fun config (key, value) => config.set? key value) default

def ofToml (source : String) : Except ConfigFault Config :=
  match (Toml.parse? source).bind ofSettings? with
  | some config => .ok config
  | none => .error .malformed

def load (files : FileTree) (path : String) : Except ConfigFault Config :=
  match files.readText path with
  | .error cause => .error (.unreadable path cause)
  | .ok source => ofToml source

/-! ## Derived places -/

def includeDirectory (config : Config) : String := PathText.join config.installRoot "include"

def templatesDirectory? (config : Config) : Option String :=
  match config.templateRoot with
  | some root => some root
  | none =>
    if config.installRoot.isEmpty then none
    else some (PathText.join config.installRoot "templates")

end Config

end SchemaGo
