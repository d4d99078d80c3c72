import SchemaGo.Compile.Run
import SchemaGo.Proofs.Reading.LoadDepth
import SchemaGo.Proofs.Reading.Lower

/-!
# Runs as lists of jobs

Compiling inputs and writing a schema differ only in where the next file comes
from.  Both go through a list of jobs, and for each job through the outputs of a
file; on the way they read files and hand over outputs.
-/

namespace SchemaGo

inductive Task where
  | compile (inputs : List String)
  | write (ast : Ast)

/-- An input is lowered as a schema of its own when its turn comes. -/
inductive Job where
  | input (path : String)
  | file (ast : Ast) (file : Ast.File)

def Task.jobs : Task → List Job
  | .compile inputs => inputs.map .input
  | .write ast => ast.files.map (.file ast)

namespace Config

def perform (config : Config) (files : FileTree) (directory : String) :
    Task → Except CompileFault (List String) × FileTree
  | .compile inputs => config.compile files inputs directory
  | .write ast => config.write files ast directory

def prepare (config : Config) (files : FileTree) : Job → Except CompileFault (Ast × Ast.File)
  | .input path => (config.lowerInput files path 0).map fun (file, _) => (⟨[file]⟩, file)
  | .file ast file => .ok (ast, file)

theorem exists_linked_of_lowerInput {config : Config} {files : FileTree} {input : String}
    {id : Ast.FileId} {lowered : Ast.File} {found : Diagnostics}
    (h : config.lowerInput files input id = .ok (lowered, found)) :
    ∃ linked, config.link files input = .ok linked ∧ linked.lower files id = .ok lowered := by
  rw [lowerInput] at h
  split at h
  · cases h
  · rename_i linked hlink
    split at h
    · cases h
    · rename_i hlower
      cases h
      exact ⟨linked, hlink, hlower⟩

def runJobs (config : Config) (directory : String) :
    List Job → Run → Except CompileFault Unit × Run
  | [], run => (.ok (), run)
  | job :: rest, run =>
    match config.prepare run.files job with
    | .error fault => (.error fault, run)
    | .ok (ast, file) =>
      match config.emitFile directory ast file run with
      | (.error fault, run) => (.error fault, run)
      | (.ok (), run) => config.runJobs directory rest run

theorem compileInputs_eq_runJobs (config : Config) (directory : String) (inputs : List String)
    (run : Run) :
    config.compileInputs directory inputs run =
      config.runJobs directory (inputs.map .input) run := by
  induction inputs generalizing run with
  | nil => rfl
  | cons input rest ih =>
      rw [compileInputs, List.map_cons, runJobs, prepare]
      generalize config.lowerInput run.files input 0 = lowered
      cases lowered with
      | error fault => rfl
      | ok lowered =>
          obtain ⟨file, found⟩ := lowered
          simp only [Except.map]
          cases config.emitFile directory ⟨[file]⟩ file run with
          | mk result next =>
              cases result with
              | error fault => rfl
              | ok _ => exact ih next

theorem emitFiles_eq_runJobs (config : Config) (directory : String) (ast : Ast)
    (files : List Ast.File) (run : Run) :
    config.emitFiles directory ast files run =
      config.runJobs directory (files.map (.file ast)) run := by
  induction files generalizing run with
  | nil => rfl
  | cons file rest ih =>
      rw [emitFiles, List.map_cons, runJobs, prepare]
      dsimp only
      cases config.emitFile directory ast file run with
      | mk result next =>
          cases result with
          | error fault => rfl
          | ok _ => exact ih next

theorem perform_eq (config : Config) (files : FileTree) (directory : String) (task : Task) :
    config.perform files directory task =
      match config.runJobs directory task.jobs (.start files) with
      | (.error fault, run) => run.abort fault
      | (.ok (), run) => run.finish directory := by
  cases hrun : config.runJobs directory task.jobs (.start files) with
  | mk result run =>
      cases task with
      | compile inputs =>
          rw [Task.jobs, ← compileInputs_eq_runJobs] at hrun
          cases result <;> simp only [perform, compile, hrun]
      | write ast =>
          rw [Task.jobs, ← emitFiles_eq_runJobs] at hrun
          cases result <;> simp only [perform, write, hrun]

/-! ## One output -/

def emit (config : Config) (directory : String) (ast : Ast) (file : Ast.File) (kind : OutputKind)
    (run : Run) : Except CompileFault Output × Run :=
  match config.renderOutput run.files ast file kind with
  | .error fault => (.error (.template fault), run)
  | .ok output =>
    match run.push config.writeMode directory output with
    | (.error fault, run) => (.error fault, run)
    | (.ok (), run) => (.ok output, run)

theorem emitKinds_cons (config : Config) (directory : String) (ast : Ast) (file : Ast.File)
    (kind : OutputKind) (rest : List OutputKind) (run : Run) :
    config.emitKinds directory ast file (kind :: rest) run =
      match config.emit directory ast file kind run with
      | (.error fault, run) => (.error fault, run)
      | (.ok _, run) => config.emitKinds directory ast file rest run := by
  rw [emitKinds, emit]
  cases config.renderOutput run.files ast file kind with
  | error fault => rfl
  | ok output =>
      dsimp only
      cases run.push config.writeMode directory output with
      | mk result next => cases result <;> rfl

/-! ## Outputs -/

def kindOutputs (config : Config) (directory : String) (ast : Ast) (file : Ast.File) :
    List OutputKind → Run → List Output
  | [], _ => []
  | kind :: rest, run =>
    match config.emit directory ast file kind run with
    | (.error _, _) => []
    | (.ok output, run) => output :: config.kindOutputs directory ast file rest run

/-- The outputs that a run hands over, in order. -/
def jobOutputs (config : Config) (directory : String) : List Job → Run → List Output
  | [], _ => []
  | job :: rest, run =>
    match config.prepare run.files job with
    | .error _ => []
    | .ok (ast, file) =>
      config.kindOutputs directory ast file file.outputKinds run ++
        match config.emitFile directory ast file run with
        | (.error _, _) => []
        | (.ok (), run) => config.jobOutputs directory rest run

/-! ## Reads -/

def templatePath? (config : Config) : OutputKind → Option String
  | .primary => none
  | .template name => (Template.locate name config.templatesDirectory?).toOption

def traceOutput (config : Config) (ast : Ast) (file : Ast.File) (kind : OutputKind)
    (tree : FileTree) : Traced Output := do
  match config.templatePath? kind with
  | none => Traced.ofOption (config.renderOutput tree ast file kind).toOption
  | some path =>
    let _ ← Traced.read tree path
    Traced.ofOption (config.renderOutput tree ast file kind).toOption

def traceJob (config : Config) (tree : FileTree) : Job → Traced (Ast × Ast.File)
  | .input path => do
    let linked ← Schema.traceLink config.includeDirectory path tree
    let file ← linked.traceLower 0 tree
    return (⟨[file]⟩, file)
  | .file ast file => pure (ast, file)

def kindReads (config : Config) (directory : String) (ast : Ast) (file : Ast.File) :
    List OutputKind → Run → List String
  | [], _ => []
  | kind :: rest, run =>
    (config.traceOutput ast file kind run.files).reads ++
      match config.emit directory ast file kind run with
      | (.error _, _) => []
      | (.ok _, run) => config.kindReads directory ast file rest run

def jobReads (config : Config) (directory : String) : List Job → Run → List String
  | [], _ => []
  | job :: rest, run =>
    (config.traceJob run.files job).reads ++
      match config.prepare run.files job with
      | .error _ => []
      | .ok (ast, file) =>
        config.kindReads directory ast file file.outputKinds run ++
          match config.emitFile directory ast file run with
          | (.error _, _) => []
          | (.ok (), run) => config.jobReads directory rest run

def outputsOf (config : Config) (files : FileTree) (directory : String) (task : Task) :
    List Output :=
  config.jobOutputs directory task.jobs (.start files)

def readsOf (config : Config) (files : FileTree) (directory : String) (task : Task) :
    List String :=
  config.jobReads directory task.jobs (.start files)

theorem result_traceOutput (config : Config) (ast : Ast) (file : Ast.File) (kind : OutputKind)
    (tree : FileTree) :
    (config.traceOutput ast file kind tree).result =
      (config.renderOutput tree ast file kind).toOption := by
  cases kind with
  | primary => rfl
  | template name =>
      rw [traceOutput, templatePath?, renderOutput]
      cases Template.locate name config.templatesDirectory? with
      | error fault => rfl
      | ok path =>
          simp only [Except.toOption, Traced.result_bind, Traced.read, Traced.result_ofOption,
            Template.renderFile, FileTree.readText]
          cases tree.read path <;> rfl

theorem determined_traceOutput (config : Config) (ast : Ast) (file : Ast.File)
    (kind : OutputKind) : Traced.Determined (config.traceOutput ast file kind) := by
  cases kind with
  | primary => exact fun _ _ _ => rfl
  | template name =>
      intro tree tree' hsame
      simp only [traceOutput, templatePath?, renderOutput] at hsame ⊢
      cases hlocate : Template.locate name config.templatesDirectory? with
      | error fault => rfl
      | ok path =>
          rw [hlocate] at hsame
          have hpath : tree.SameRead tree' path :=
            hsame path (Traced.mem_reads_bind _ (List.mem_singleton.mpr rfl))
          simp only [Except.toOption, Traced.determined_read path tree tree' (by
            simpa [Traced.read] using hpath)]
          refine Traced.bind_congr_of_result fun bytes hbytes => ?_
          have hread : tree.read path = .ok bytes := by
            cases hread : tree.read path <;> simp_all [Traced.read, Except.toOption]
          simp only [Template.renderFile, FileTree.readText, hread, hpath.read hread]

theorem result_traceJob (config : Config) (tree : FileTree) (job : Job) :
    (config.traceJob tree job).result = (config.prepare tree job).toOption := by
  cases job with
  | file ast file => rfl
  | input path =>
      simp only [traceJob, prepare, Traced.result_bind, Schema.result_traceLink,
        Schema.Linked.result_traceLower, Traced.result_pure]
      unfold lowerInput link
      generalize Schema.link tree config.includeDirectory path = linked
      cases linked with
      | error fault => rfl
      | ok linked =>
          simp only [Except.toOption, Option.bind_some]
          cases linked.lower tree 0 <;> rfl

theorem determined_traceJob (config : Config) (job : Job) :
    Traced.Determined fun tree => config.traceJob tree job := by
  cases job with
  | file ast file => exact Traced.determined_const _
  | input path =>
      exact (Schema.determined_traceLink config.includeDirectory path).bind fun linked =>
        (linked.determined_traceLower 0).bind fun file => Traced.determined_const _

end Config

end SchemaGo
