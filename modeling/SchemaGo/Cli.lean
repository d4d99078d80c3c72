import SchemaGo.Compile.Run

/-!
# The command line

The arguments of the program, and what a call does to the files.
-/

namespace SchemaGo

structure Arguments where
  inputs : List String
  out : Option String
  config : Option String
  installRoot : Option String
  staged : Bool
  schemaSetOut : Option String
deriving DecidableEq, Repr

namespace Arguments

def empty : Arguments := ⟨[], none, none, none, false, none⟩

inductive Request where
  | compile (arguments : Arguments)
  | help
  | usage
deriving DecidableEq, Repr

inductive Setting where
  | out
  | config
  | installRoot
  | schemaSetOut
deriving DecidableEq, Repr

def Setting.ofName? (name : String) : Option Setting :=
  match name with
  | "out" => some .out
  | "config" => some .config
  | "install-root" => some .installRoot
  | "descriptor-set-out" => some .schemaSetOut
  | _ => none

def set? (arguments : Arguments) (setting : Setting) (value : String) : Option Arguments :=
  if value.isEmpty then none
  else match setting with
    | .out => if arguments.out.isSome then none else some { arguments with out := some value }
    | .config =>
      if arguments.config.isSome then none else some { arguments with config := some value }
    | .installRoot =>
      if arguments.installRoot.isSome then none
      else some { arguments with installRoot := some value }
    | .schemaSetOut =>
      if arguments.schemaSetOut.isSome then none
      else some { arguments with schemaSetOut := some value }

def addInput? (arguments : Arguments) (input : String) : Option Arguments :=
  if input.isEmpty then none else some { arguments with inputs := arguments.inputs ++ [input] }

def addInputs? (arguments : Arguments) (inputs : List String) : Option Arguments :=
  inputs.foldlM addInput? arguments

/-- A value must not look like an option; a single dash does not. -/
def looksLikeOption (argument : String) : Bool :=
  match argument.toList with
  | '-' :: _ :: _ => true
  | _ => false

inductive Shape where
  | input
  | endOfOptions
  | long (name : String) (value : Option String)
  | short (flag : Char) (value : Option String)

def shape (argument : String) : Shape :=
  match argument.toList with
  | ['-', '-'] => .endOfOptions
  | '-' :: '-' :: rest =>
    match Text.cutFirst? '=' rest with
    | some (name, value) => .long (String.ofList name) (some (String.ofList value))
    | none => .long (String.ofList rest) none
  | '-' :: flag :: '=' :: value => .short flag (some (String.ofList value))
  | '-' :: flag :: [] => .short flag none
  | '-' :: flag :: value => .short flag (some (String.ofList value))
  | _ => .input

def Shape.setting? : Shape → Option (Setting × Option String)
  | .long name value => (Setting.ofName? name).map fun setting => (setting, value)
  | .short 'o' value => some (.out, value)
  | _ => none

/-- Reads arguments from left to right.  The letters that ask for help take effect at once, whatever
is attached to them. -/
def readFrom : Nat → Arguments → List String → Request
  | 0, _, _ => .usage
  | _ + 1, arguments, [] => .compile arguments
  | fuel + 1, arguments, argument :: rest =>
    let continueWith := fun (next : Option Arguments) (rest : List String) =>
      match next with
      | some arguments => readFrom fuel arguments rest
      | none => .usage
    match shape argument with
    | .input => continueWith (arguments.addInput? argument) rest
    | .endOfOptions => continueWith (arguments.addInputs? rest) []
    | .long "staged" none =>
      if arguments.staged then .usage else readFrom fuel { arguments with staged := true } rest
    | .long "help" none | .long "version" none | .short 'h' _ | .short 'V' _ => .help
    | shape =>
      match shape.setting?, rest with
      | some (setting, some value), rest => continueWith (arguments.set? setting value) rest
      | some (setting, none), value :: rest =>
        if looksLikeOption value then .usage
        else continueWith (arguments.set? setting value) rest
      | _, _ => .usage

def read (home : Option String) (arguments : List String) : Request :=
  match readFrom (arguments.length + 1) empty arguments with
  | .compile arguments =>
    if arguments.inputs.isEmpty then .usage
    else if arguments.installRoot.isSome then .compile arguments
    else match home with
      | none => .compile arguments
      | some root =>
        match arguments.set? .installRoot root with
        | some arguments => .compile arguments
        | none => .usage
  | request => request

def directory (arguments : Arguments) : String := arguments.out.getD "."

end Arguments

/-! ## Calls -/

structure CallResult where
  code : Nat
  report : String
  files : FileTree
deriving DecidableEq, Repr

namespace Cli

def usage : String :=
  "usage: protov [OPTIONS] <FILES>...\n\n" ++
  "Compile protobuf schemas into Go sources\n\n" ++
  "  -o, --out <OUT>                    Output directory [default: .]\n" ++
  "      --config <CONFIG>              TOML config file\n" ++
  "      --install-root <ROOT>          Toolchain root holding include/ and templates/\n" ++
  "                                     [env: PROTOV_HOME]\n" ++
  "      --staged                       Render everything before writing anything\n" ++
  "      --descriptor-set-out <FILE>    Also write the linked descriptor set here\n"

def configOf (arguments : Arguments) (files : FileTree) : Except ConfigFault Config := do
  let config ← match arguments.config with
    | some path => Config.load files path
    | none => .ok Config.default
  let config := match arguments.installRoot with
    | some root => { config with installRoot := root }
    | none => config
  .ok (if arguments.staged then { config with writeMode := .staged } else config)

def directories (arguments : Arguments) (config : Config) : List String :=
  let parents := arguments.inputs.map fun input => (PathText.parent? input).getD ""
  (parents ++ [config.includeDirectory] ++ config.templatesDirectory?.toList ++
    [arguments.directory]).map fun path => if path.isEmpty then "." else path

/-- A failing call reports the step that failed, and the cause where no step names it. -/
def failed (context : String) (files : FileTree) : CallResult := ⟨1, "Error: " ++ context, files⟩

def writeSet (config : Config) (arguments : Arguments) (files : FileTree) :
    Except CallResult FileTree :=
  match arguments.schemaSetOut with
  | none => .ok files
  | some path =>
    match config.schemaSet files arguments.inputs with
    | .error fault => .error (failed fault.message files)
    | .ok set =>
      match files.write path (Text.Utf8.encode (Schema.summarize set)) with
      | (.error _, files) => .error (failed ("writing " ++ path) files)
      | (.ok (), files) => .ok files

def compile (arguments : Arguments) (files : FileTree) : CallResult :=
  match configOf arguments files with
  | .error _ => failed ("loading " ++ arguments.config.getD "") files
  | .ok config =>
    match writeSet config arguments files with
    | .error result => result
    | .ok files =>
      match config.compile files arguments.inputs arguments.directory with
      | (.error _, files) => failed ("generating into " ++ arguments.directory) files
      | (.ok written, files) =>
        ⟨0, s!"Generated {written.length} file(s) in {arguments.directory}", files⟩

def call (home : Option String) (arguments : List String) (files : FileTree) : CallResult :=
  match Arguments.read home arguments with
  | .usage => ⟨2, usage, files⟩
  | .help => ⟨0, "", files⟩
  | .compile arguments => compile arguments files

end Cli

end SchemaGo
