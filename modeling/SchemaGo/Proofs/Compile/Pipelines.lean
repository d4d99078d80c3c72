import SchemaGo.Proofs.Compile.Modes
import SchemaGo.Proofs.Lower.Position
import SchemaGo.Proofs.Success

/-!
# The two ways to compile

Inputs can be compiled one by one, each as a schema of its own, or parsed into one
schema whose outputs are rendered afterwards.  The Go source of a file is the same
either way: it depends neither on the position of the file nor on the other files.
For a single input there is no difference at all.
-/

namespace SchemaGo

/-! ## Sources do not show positions -/

theorem Go.Emitter.renderFile_atPosition (emitter : Emitter) (id : Ast.FileId) (file : Ast.File) :
    emitter.renderFile (file.atPosition id) = emitter.renderFile file := by
  have hdeclarations : emitter.declarationLines (file.atPosition id) =
      emitter.declarationLines file := by
    simp only [declarationLines, Ast.File.atPosition, List.flatMap_map]
    rfl
  have himports : emitter.importLines (file.atPosition id) = emitter.importLines file := by
    simp [importLines, standardImports, Ast.File.atPosition]
  have hheader : headerLines (file.atPosition id) = headerLines file := rfl
  rw [renderFile, renderFile, fileLines, fileLines, hdeclarations, himports, hheader]

namespace Config

variable {config : Config} {directory : String} {files : FileTree}

def primaryOutput (config : Config) (file : Ast.File) : Output :=
  ⟨config.primaryPath file, Text.Utf8.encode (config.primarySource file)⟩

theorem primaryOutput_atPosition (config : Config) (id : Ast.FileId) (file : Ast.File) :
    config.primaryOutput (file.atPosition id) = config.primaryOutput file := by
  rw [primaryOutput, primarySource, Go.Emitter.renderFile_atPosition]
  rfl

theorem lowerInput_atPosition (config : Config) (files : FileTree) (input : String)
    (id id' : Ast.FileId) :
    config.lowerInput files input id' =
      (config.lowerInput files input id).map fun (file, found) => (file.atPosition id', found) := by
  rw [lowerInput, lowerInput]
  cases config.link files input with
  | error fault => rfl
  | ok linked =>
      simp only [linked.lower_atPosition files id id']
      cases linked.lower files id <;> rfl

/-! ## Parsing -/

theorem parseFrom_inv {inputs : List String} {ast result : Ast} {found diagnostics : Diagnostics}
    (h : config.parseFrom files ast found inputs = .ok (result, diagnostics)) :
    ∃ added, result.files = ast.files ++ added ∧
      List.Forall₂ (fun input file => ∃ id own,
        config.lowerInput files input id = .ok (file, own)) inputs added := by
  induction inputs generalizing ast found with
  | nil =>
      cases h
      exact ⟨[], by simp, .nil⟩
  | cons input rest ih =>
      rw [parseFrom] at h
      cases hlower : config.lowerInput files input ast.nextId with
      | error fault => simp [hlower] at h
      | ok lowered =>
          obtain ⟨file, own⟩ := lowered
          simp only [hlower] at h
          obtain ⟨added, hfiles, hadded⟩ := ih h
          exact ⟨file :: added, by simp [hfiles], .cons ⟨_, own, hlower⟩ hadded⟩

theorem parse_inv {inputs : List String} {ast : Ast} {diagnostics : Diagnostics}
    (h : config.parse files inputs = .ok (ast, diagnostics)) :
    List.Forall₂ (fun input file => ∀ id, ∃ own,
      config.lowerInput files input id = .ok (file.atPosition id, own)) inputs ast.files := by
  obtain ⟨added, hfiles, hadded⟩ := parseFrom_inv h
  rw [hfiles, Ast.empty, List.nil_append]
  refine hadded.imp fun input file hlower id => ?_
  obtain ⟨id', own, hlower⟩ := hlower
  exact ⟨own, by rw [config.lowerInput_atPosition files input id' id, hlower]; rfl⟩

/-! ## Outputs by job -/

/-- The outputs that a run hands over, job by job; the last job may have failed. -/
def jobGroups (config : Config) (directory : String) : List Job → Run → List (List Output)
  | [], _ => []
  | job :: rest, run =>
    match config.prepare run.files job with
    | .error _ => []
    | .ok (ast, file) =>
      config.kindOutputs directory ast file file.outputKinds run ::
        match config.emitFile directory ast file run with
        | (.error _, _) => []
        | (.ok (), run) => config.jobGroups directory rest run

theorem flatten_jobGroups (config : Config) (directory : String) (jobs : List Job) (run : Run) :
    (config.jobGroups directory jobs run).flatten = config.jobOutputs directory jobs run := by
  induction jobs generalizing run with
  | nil => rfl
  | cons job rest ih =>
      rw [jobGroups, jobOutputs]
      cases config.prepare run.files job with
      | error fault => rfl
      | ok prepared =>
          dsimp only
          cases config.emitFile directory prepared.1 prepared.2 run with
          | mk result next =>
              cases result with
              | error fault => rfl
              | ok _ => simp [ih]

def groupsOf (config : Config) (files : FileTree) (directory : String) (task : Task) :
    List (List Output) :=
  config.jobGroups directory task.jobs (.start files)

theorem head?_kindOutputs (hmode : config.writeMode = .staged) (directory : String) (ast : Ast)
    (file : Ast.File) (run : Run) :
    (config.kindOutputs directory ast file file.outputKinds run).head? =
      some (config.primaryOutput file) := by
  have hrender : config.renderOutput run.files ast file .primary =
      .ok (config.primaryOutput file) := rfl
  simp [Ast.File.outputKinds, kindOutputs, emit, hrender, hmode, Run.push]

theorem files_emitFile (hmode : config.writeMode = .staged) {ast : Ast} {file : Ast.File}
    {run next : Run} {result : Except CompileFault Unit}
    (h : config.emitFile directory ast file run = (result, next)) : next.files = run.files := by
  have hrun := (emitKinds_staged hmode directory ast file file.outputKinds run).1
  rw [emitFile] at h
  rw [h] at hrun
  simp only at hrun
  rw [hrun]

def LowersEach (config : Config) (files : FileTree) (inputs : List String)
    (lowered : List Ast.File) : Prop :=
  List.Forall₂ (fun input file => ∀ id, ∃ found,
    config.lowerInput files input id = .ok (file.atPosition id, found)) inputs lowered

theorem heads_jobGroups (hmode : config.writeMode = .staged) (directory : String)
    {inputs : List String} {lowered : List Ast.File} {run : Run}
    (h : config.LowersEach run.files inputs lowered) :
    (config.jobGroups directory (inputs.map .input) run).map List.head? <+:
        lowered.map (fun file => some (config.primaryOutput file)) ∧
      ((config.runJobs directory (inputs.map .input) run).1 = .ok () →
        (config.jobGroups directory (inputs.map .input) run).map List.head? =
          lowered.map fun file => some (config.primaryOutput file)) := by
  induction inputs generalizing lowered run with
  | nil =>
      cases h
      simp [jobGroups]
  | cons input rest ih =>
      cases h with
      | cons hinput hrest =>
          rename_i file others
          obtain ⟨found, hlower⟩ := hinput 0
          have hprepare : config.prepare run.files (.input input) =
              .ok (⟨[file.atPosition 0]⟩, file.atPosition 0) := by
            rw [prepare, hlower]
            rfl
          simp only [List.map_cons, jobGroups, runJobs, hprepare, head?_kindOutputs hmode,
            config.primaryOutput_atPosition 0 file, List.cons_prefix_cons, true_and,
            List.cons.injEq]
          cases hemit : config.emitFile directory ⟨[file.atPosition 0]⟩ (file.atPosition 0) run with
          | mk result next =>
              cases result with
              | error fault => simp
              | ok _ => exact ih (by rwa [files_emitFile hmode hemit])

theorem fileOutputs_eq (config : Config) (files : FileTree) (ast : Ast) (file : Ast.File) :
    config.fileOutputs files ast file =
      ((file.services.flatMap fun service => service.codeGeneration.map .template).mapM
        (config.renderOutput files ast file)).map (config.primaryOutput file :: ·) := by
  rw [fileOutputs, Ast.File.outputKinds, List.mapM_cons]
  rfl

theorem outputs_eq (config : Config) (files : FileTree) (ast : Ast) :
    config.outputs files ast =
      (ast.files.mapM (config.fileOutputs files ast)).map List.flatten := by
  rw [outputs]
  cases ast.files.mapM (config.fileOutputs files ast) <;> rfl

theorem heads_outputs {ast : Ast} {outputs : List Output}
    (h : config.outputs files ast = .ok outputs) :
    ∃ groups, ast.files.mapM (config.fileOutputs files ast) = .ok groups ∧
      outputs = groups.flatten ∧
      groups.map List.head? = ast.files.map fun file => some (config.primaryOutput file) := by
  rw [outputs_eq, map_eq_ok_iff] at h
  obtain ⟨groups, hgroups, rfl⟩ := h
  refine ⟨groups, hgroups, rfl, ?_⟩
  refine (map_eq_map_of_forall₂ (forall₂_of_mapM hgroups) fun file group hgroup => ?_).symm
  rw [fileOutputs_eq, map_eq_ok_iff] at hgroup
  obtain ⟨templates, -, rfl⟩ := hgroup
  rfl

theorem parse_singleton (config : Config) (files : FileTree) (input : String) :
    config.parse files [input] = (config.lowerInput files input 0).map fun (file, found) =>
      (⟨[file]⟩, Diagnostics.empty.merge found) := by
  have hfirst : Ast.empty.nextId = 0 := rfl
  rw [parse, parseFrom, hfirst]
  cases config.lowerInput files input 0 <;> rfl

theorem compile_singleton (config : Config) (files : FileTree) (directory input : String) :
    config.compile files [input] directory =
      match config.parse files [input] with
      | .error fault => (.error fault, files)
      | .ok (ast, _) => config.write files ast directory := by
  have hstart : (Run.start files).files = files := rfl
  rw [parse_singleton, compile, compileInputs, hstart]
  cases config.lowerInput files input 0 with
  | error fault => rfl
  | ok lowered => simp only [Except.map, write, emitFiles, compileInputs]

/-- For inputs that can be parsed into a schema, a staged run that compiles them renders the same Go
sources, with the same paths, as the outputs of the schema: whatever it has rendered consists of one
group for each input it has come to, with the Go source of the file at the front.  The Go source of
a file of the schema is always rendered, its outputs are this one and those of its templates, and
the outputs of the schema are those of its files.  A single input is compiled just as it is parsed
and then written, in both modes. -/
theorem compile_agrees_with_parse (config : Config) (files : FileTree) (directory : String) :
    (∀ inputs ast diagnostics, config.writeMode = .staged →
      config.parse files inputs = .ok (ast, diagnostics) →
        (∀ id, List.Forall₂ (fun input file => ∃ own found,
          config.lowerInput files input id = .ok (own, found) ∧
            config.primaryOutput own = config.primaryOutput file) inputs ast.files) ∧
        (config.groupsOf files directory (.compile inputs)).flatten =
          (config.compileInputs directory inputs (.start files)).2.pending ∧
        (config.groupsOf files directory (.compile inputs)).map List.head? <+:
          ast.files.map (fun file => some (config.primaryOutput file)) ∧
        ((config.compileInputs directory inputs (.start files)).1 = .ok () →
          (config.groupsOf files directory (.compile inputs)).map List.head? =
            ast.files.map fun file => some (config.primaryOutput file)) ∧
        (∀ file ∈ ast.files,
          config.renderOutput files ast file .primary = .ok (config.primaryOutput file) ∧
            config.fileOutputs files ast file =
              ((file.services.flatMap fun service => service.codeGeneration.map .template).mapM
                (config.renderOutput files ast file)).map (config.primaryOutput file :: ·)) ∧
        config.outputs files ast =
          (ast.files.mapM (config.fileOutputs files ast)).map List.flatten ∧
        ∀ outputs, config.outputs files ast = .ok outputs →
          ∃ groups, ast.files.mapM (config.fileOutputs files ast) = .ok groups ∧
            outputs = groups.flatten ∧
            groups.map List.head? =
              ast.files.map fun file => some (config.primaryOutput file)) ∧
    ∀ input, config.compile files [input] directory =
      match config.parse files [input] with
      | .error fault => (.error fault, files)
      | .ok (ast, _) => config.write files ast directory := by
  refine ⟨fun inputs ast diagnostics hmode hparse => ?_, fun input =>
    config.compile_singleton files directory input⟩
  have hlowers : config.LowersEach files inputs ast.files := parse_inv hparse
  have hstart : config.LowersEach (Run.start files).files inputs ast.files := hlowers
  obtain ⟨hheads, hall⟩ := heads_jobGroups hmode directory hstart
  have hpending := (runJobs_staged hmode directory (inputs.map .input) (.start files)).1
  rw [← compileInputs_eq_runJobs] at hall hpending
  refine ⟨fun id => hlowers.imp fun input file hlower => ?_, ?_, hheads, hall,
    fun file _ => ⟨rfl, config.fileOutputs_eq files ast file⟩, config.outputs_eq files ast,
    fun outputs houtputs => heads_outputs houtputs⟩
  · obtain ⟨found, hlower⟩ := hlower id
    exact ⟨_, found, hlower, config.primaryOutput_atPosition id file⟩
  · rw [hpending, groupsOf, flatten_jobGroups]
    rfl

def messageBehind : FileTree :=
  ⟨["work"], [(["work", "a.proto"], .file []),
    (["work", "b.proto"], .file (Text.Utf8.encode "message M \x7b\x7d"))]⟩

def stagedDefault : Config := { Config.default with writeMode := .staged }

theorem compile_agrees_with_parse_two :
    ∃ ast diagnostics outputs groups,
      stagedDefault.parse messageBehind ["a.proto", "b.proto"] = .ok (ast, diagnostics) ∧
        ast.files.length = 2 ∧
        (stagedDefault.groupsOf messageBehind "out" (.compile ["a.proto", "b.proto"])).map
          List.head? = ast.files.map (fun file => some (stagedDefault.primaryOutput file)) ∧
        stagedDefault.outputs messageBehind ast = .ok outputs ∧
        ast.files.mapM (stagedDefault.fileOutputs messageBehind ast) = .ok groups ∧
        outputs = groups.flatten ∧
        groups.map List.head? =
          ast.files.map fun file => some (stagedDefault.primaryOutput file) := by
  have hparses : ((stagedDefault.parse messageBehind ["a.proto", "b.proto"]).toOption.map
      fun (ast, _) => (ast.files.length, (stagedDefault.outputs messageBehind ast).isOk)) =
        some (2, true) := by
    decide +kernel
  have hcompiles : (stagedDefault.compileInputs "out" ["a.proto", "b.proto"]
      (.start messageBehind)).1 = .ok () := by
    decide +kernel
  obtain ⟨⟨ast, diagnostics⟩, hparse, hseen⟩ := exists_eq_ok_of_map hparses
  obtain ⟨hlength, hrenders⟩ := Prod.mk.inj hseen
  obtain ⟨-, -, -, hall, -, -, hgenerate⟩ :=
    (compile_agrees_with_parse stagedDefault messageBehind "out").1
      ["a.proto", "b.proto"] ast diagnostics rfl hparse
  obtain ⟨outputs, houtputs⟩ := exists_eq_ok_of_isOk hrenders
  obtain ⟨groups, hgroups⟩ := hgenerate outputs houtputs
  exact ⟨ast, diagnostics, outputs, groups, hparse, hlength, hall hcompiles, houtputs, hgroups⟩

end Config

end SchemaGo
