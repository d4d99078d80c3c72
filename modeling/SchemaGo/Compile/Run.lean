import SchemaGo.Compile.Output
import SchemaGo.Lower.File
import SchemaGo.Schema.Summary
import SchemaGo.Schema.Uses

/-!
# Compiling

From schema files to written outputs.  Each input is linked and lowered, its outputs are rendered in
order, and they are written either one by one or all at the end.  A run that fails half way keeps
what it has written, so the files are returned either way.
-/

namespace SchemaGo

inductive CompileFault where
  | link (fault : Schema.LinkFault)
  | lower (file : String) (fault : LowerFault)
  | template (fault : TemplateFault)
  | write (path : String) (cause : FileFault)
deriving DecidableEq, Repr

/-- A file that is missed after linking is no failure of linking. -/
def CompileFault.message : CompileFault → String
  | .link (.missing file) => (Schema.LinkFault.missing file).message
  | .link fault => "link failed: " ++ fault.message
  | .lower file fault => s!"lowering {file}: {fault.message}"
  | .template fault => fault.message
  | .write path cause => s!"writing {path}: {cause.message}"

namespace Config

/-! ## From inputs to lowered files -/

def link (config : Config) (files : FileTree) (input : String) :
    Except CompileFault Schema.Linked :=
  match Schema.link files config.includeDirectory input with
  | .ok linked => .ok linked
  | .error fault => .error (.link fault)

def lowerInput (config : Config) (files : FileTree) (input : String) (id : Ast.FileId) :
    Except CompileFault (Ast.File × Diagnostics) :=
  match config.link files input with
  | .error fault => .error fault
  | .ok linked =>
    match linked.lower files id with
    | .error fault => .error (.lower linked.file.name fault)
    | .ok file => .ok (file, linked.file.diagnose)

def parseFrom (config : Config) (files : FileTree) :
    Ast → Diagnostics → List String → Except CompileFault (Ast × Diagnostics)
  | ast, diagnostics, [] => .ok (ast, diagnostics)
  | ast, diagnostics, input :: rest =>
    match config.lowerInput files input ast.nextId with
    | .error fault => .error fault
    | .ok (file, found) =>
      config.parseFrom files ⟨ast.files ++ [file]⟩ (diagnostics.merge found) rest

def parse (config : Config) (files : FileTree) (inputs : List String) :
    Except CompileFault (Ast × Diagnostics) :=
  config.parseFrom files .empty .empty inputs

def schemaSetFrom (config : Config) (files : FileTree) :
    List Schema.File → List String → Except CompileFault (List Schema.File)
  | set, [] => .ok set
  | set, input :: rest =>
    match config.link files input with
    | .error fault => .error fault
    | .ok linked => config.schemaSetFrom files (Schema.addFiles set linked.pool.files) rest

def schemaSet (config : Config) (files : FileTree) (inputs : List String) :
    Except CompileFault (List Schema.File) :=
  config.schemaSetFrom files [] inputs

end Config

/-! ## Writing -/

/-- A run on its way: the files as they are now, the paths written so far, and the outputs that wait
for the end of the run. -/
structure Run where
  files : FileTree
  written : List String
  pending : List Output
deriving DecidableEq, Repr

namespace Run

def start (files : FileTree) : Run := ⟨files, [], []⟩

def write (run : Run) (directory : String) (output : Output) : Except CompileFault Unit × Run :=
  let path := PathText.join directory output.path
  match run.files.put path output.contents with
  | (.ok (), files) => (.ok (), { run with files, written := run.written ++ [path] })
  | (.error cause, files) => (.error (.write path cause), { run with files })

def push (run : Run) (mode : WriteMode) (directory : String) (output : Output) :
    Except CompileFault Unit × Run :=
  match mode with
  | .writeThrough => run.write directory output
  | .staged => (.ok (), { run with pending := run.pending ++ [output] })

def writeAll (directory : String) : List Output → Run → Except CompileFault Unit × Run
  | [], run => (.ok (), run)
  | output :: rest, run =>
    match run.write directory output with
    | (.error fault, run) => (.error fault, run)
    | (.ok (), run) => writeAll directory rest run

/-- Ends a run: what waits is written. -/
def finish (run : Run) (directory : String) : Except CompileFault (List String) × FileTree :=
  match writeAll directory run.pending { run with pending := [] } with
  | (.error fault, run) => (.error fault, run.files)
  | (.ok (), run) => (.ok run.written, run.files)

def abort (run : Run) (fault : CompileFault) : Except CompileFault (List String) × FileTree :=
  (.error fault, run.files)

end Run

namespace Config

def emitKinds (config : Config) (directory : String) (ast : Ast) (file : Ast.File) :
    List OutputKind → Run → Except CompileFault Unit × Run
  | [], run => (.ok (), run)
  | kind :: rest, run =>
    match config.renderOutput run.files ast file kind with
    | .error fault => (.error (.template fault), run)
    | .ok output =>
      match run.push config.writeMode directory output with
      | (.error fault, run) => (.error fault, run)
      | (.ok (), run) => config.emitKinds directory ast file rest run

def emitFile (config : Config) (directory : String) (ast : Ast) (file : Ast.File) (run : Run) :
    Except CompileFault Unit × Run :=
  config.emitKinds directory ast file file.outputKinds run

def emitFiles (config : Config) (directory : String) (ast : Ast) :
    List Ast.File → Run → Except CompileFault Unit × Run
  | [], run => (.ok (), run)
  | file :: rest, run =>
    match config.emitFile directory ast file run with
    | (.error fault, run) => (.error fault, run)
    | (.ok (), run) => config.emitFiles directory ast rest run

def write (config : Config) (files : FileTree) (ast : Ast) (directory : String) :
    Except CompileFault (List String) × FileTree :=
  match config.emitFiles directory ast ast.files (.start files) with
  | (.error fault, run) => run.abort fault
  | (.ok (), run) => run.finish directory

def compileInputs (config : Config) (directory : String) :
    List String → Run → Except CompileFault Unit × Run
  | [], run => (.ok (), run)
  | input :: rest, run =>
    match config.lowerInput run.files input 0 with
    | .error fault => (.error fault, run)
    | .ok (file, _) =>
      match config.emitFile directory ⟨[file]⟩ file run with
      | (.error fault, run) => (.error fault, run)
      | (.ok (), run) => config.compileInputs directory rest run

def compile (config : Config) (files : FileTree) (inputs : List String) (directory : String) :
    Except CompileFault (List String) × FileTree :=
  match config.compileInputs directory inputs (.start files) with
  | (.error fault, run) => run.abort fault
  | (.ok (), run) => run.finish directory

end Config

end SchemaGo
