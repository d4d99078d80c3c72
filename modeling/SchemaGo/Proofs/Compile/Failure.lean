import SchemaGo.Proofs.Compile.Modes

/-!
# What a failed run leaves behind

A run fails in one of its jobs, after all outputs of the earlier ones.  The job
cannot be prepared, or some of its outputs are handed over and the next one
cannot be rendered or written.
-/

namespace SchemaGo.Config

variable {config : Config} {directory : String}

/-! ## Where a run stops -/

inductive Fails (config : Config) (directory : String) (ast : Ast) (file : Ast.File)
    (kind : OutputKind) (run : Run) : CompileFault → Prop
  | unrendered {fault : TemplateFault}
      (hrender : config.renderOutput run.files ast file kind = .error fault) :
      Fails config directory ast file kind run (.template fault)
  | unwritten {output : Output} {cause : FileFault} {after : FileTree}
      (hrender : config.renderOutput run.files ast file kind = .ok output)
      (hput : run.files.put (PathText.join directory output.path) output.contents =
        (.error cause, after)) :
      Fails config directory ast file kind run (.write (PathText.join directory output.path) cause)

inductive Emits (config : Config) (directory : String) (ast : Ast) (file : Ast.File) :
    List OutputKind → Run → List Output → Run → Prop
  | none {run : Run} : Emits config directory ast file [] run [] run
  | next {kind : OutputKind} {rest : List OutputKind} {run middle after : Run} {output : Output}
      {more : List Output}
      (hrender : config.renderOutput run.files ast file kind = .ok output)
      (hpush : run.push config.writeMode directory output = (.ok (), middle))
      (hrest : Emits config directory ast file rest middle more after) :
      Emits config directory ast file (kind :: rest) run (output :: more) after

/-- The outputs of whole jobs: of each file the Go source, and then one output for every template
that its services ask for. -/
inductive Delivers (config : Config) (directory : String) :
    List Job → Run → List Output → Run → Prop
  | none {run : Run} : Delivers config directory [] run [] run
  | next {job : Job} {rest : List Job} {run middle after : Run} {ast : Ast} {file : Ast.File}
      {outputs more : List Output}
      (hprepare : config.prepare run.files job = .ok (ast, file))
      (hemits : config.Emits directory ast file
        (.primary :: file.services.flatMap fun service => service.codeGeneration.map .template)
        run outputs middle)
      (hrest : Delivers config directory rest middle more after) :
      Delivers config directory (job :: rest) run (outputs ++ more) after

inductive Stops (config : Config) (directory : String) (job : Job) (run : Run) :
    List Output → CompileFault → Prop
  | unprepared {fault : CompileFault} (hprepare : config.prepare run.files job = .error fault) :
      Stops config directory job run [] fault
  | within {ast : Ast} {file : Ast.File} {done rest : List OutputKind} {kind : OutputKind}
      {outputs : List Output} {next : Run} {fault : CompileFault}
      (hprepare : config.prepare run.files job = .ok (ast, file))
      (hkinds : (.primary :: file.services.flatMap fun service =>
        service.codeGeneration.map .template) = done ++ kind :: rest)
      (hemits : config.Emits directory ast file done run outputs next)
      (hfails : config.Fails directory ast file kind next fault) :
      Stops config directory job run outputs fault

theorem fails_of_emit {ast : Ast} {file : Ast.File} {kind : OutputKind} {run after : Run}
    {fault : CompileFault}
    (h : config.emit directory ast file kind run = (.error fault, after)) :
    config.Fails directory ast file kind run fault := by
  rw [emit] at h
  split at h
  · rename_i hrender
    cases h
    exact .unrendered hrender
  · rename_i output hrender
    split at h
    · rename_i hpush
      cases h
      have hwrite := Run.write_of_push hpush
      simp only [Run.write] at hwrite
      split at hwrite
      · cases hwrite
      · rename_i hput
        cases hwrite
        exact .unwritten hrender hput
    · cases h

theorem emits_of_emit {ast : Ast} {file : Ast.File} {kind : OutputKind}
    {rest : List OutputKind} {run next after : Run} {output : Output} {more : List Output}
    (h : config.emit directory ast file kind run = (.ok output, next))
    (hrest : config.Emits directory ast file rest next more after) :
    config.Emits directory ast file (kind :: rest) run (output :: more) after := by
  rw [emit] at h
  split at h
  · cases h
  · rename_i hrender
    split at h
    · cases h
    · rename_i hpush
      cases h
      exact .next hrender hpush hrest

theorem emits_of_emitKinds {ast : Ast} {file : Ast.File} {kinds : List OutputKind}
    {run after : Run} (h : config.emitKinds directory ast file kinds run = (.ok (), after)) :
    config.Emits directory ast file kinds run (config.kindOutputs directory ast file kinds run)
      after := by
  induction kinds generalizing run with
  | nil =>
      cases h
      exact .none
  | cons kind rest ih =>
      rw [emitKinds_cons] at h
      rw [kindOutputs]
      cases hemit : config.emit directory ast file kind run with
      | mk result next =>
          rw [hemit] at h
          cases result with
          | error fault => cases h
          | ok output => exact emits_of_emit hemit (ih h)

theorem exists_fails_of_emitKinds {ast : Ast} {file : Ast.File} {kinds : List OutputKind}
    {run after : Run} {fault : CompileFault}
    (h : config.emitKinds directory ast file kinds run = (.error fault, after)) :
    ∃ done kind rest next, kinds = done ++ kind :: rest ∧
      config.Emits directory ast file done run
        (config.kindOutputs directory ast file kinds run) next ∧
      config.Fails directory ast file kind next fault := by
  induction kinds generalizing run with
  | nil => cases h
  | cons kind rest ih =>
      rw [emitKinds_cons] at h
      rw [kindOutputs]
      cases hemit : config.emit directory ast file kind run with
      | mk result next =>
          rw [hemit] at h
          cases result with
          | error fault' =>
              cases h
              exact ⟨[], kind, rest, run, rfl, .none, fails_of_emit hemit⟩
          | ok output =>
              obtain ⟨done, kind', rest', last, hkinds, hemits, hfails⟩ := ih h
              exact ⟨kind :: done, kind', rest', last, by simp [hkinds],
                emits_of_emit hemit hemits, hfails⟩

theorem exists_stops_of_runJobs {jobs : List Job} {run after : Run} {fault : CompileFault}
    (h : config.runJobs directory jobs run = (.error fault, after)) :
    ∃ earlier job later delivered middle rendered, jobs = earlier ++ job :: later ∧
      config.Delivers directory earlier run delivered middle ∧
      config.Stops directory job middle rendered fault ∧
      config.jobOutputs directory jobs run = delivered ++ rendered := by
  induction jobs generalizing run with
  | nil => cases h
  | cons job rest ih =>
      rw [runJobs] at h
      rw [jobOutputs]
      cases hprepare : config.prepare run.files job with
      | error fault' =>
          rw [hprepare] at h
          cases h
          exact ⟨[], job, rest, [], after, [], rfl, .none, .unprepared hprepare, rfl⟩
      | ok prepared =>
          obtain ⟨ast, file⟩ := prepared
          rw [hprepare] at h
          dsimp only at h ⊢
          cases hemit : config.emitFile directory ast file run with
          | mk result next =>
              rw [hemit] at h
              cases result with
              | error fault' =>
                  cases h
                  obtain ⟨done, kind, rest', last, hkinds, hemits, hfails⟩ :=
                    exists_fails_of_emitKinds hemit
                  exact ⟨[], job, rest, [], run, _, rfl, .none,
                    .within hprepare hkinds hemits hfails, by simp⟩
              | ok _ =>
                  obtain ⟨earlier, job', later, delivered, middle, rendered, hjobs, hdelivers,
                    hstops, houtputs⟩ := ih h
                  refine ⟨job :: earlier, job', later, _, middle, rendered, by simp [hjobs],
                    .next hprepare (emits_of_emitKinds hemit) hdelivers, hstops, ?_⟩
                  simp only [houtputs, List.append_assoc]
                  rfl

/-! ## What is left -/

theorem perform_error_staged (hmode : config.writeMode = .staged) {files after : FileTree}
    {task : Task} {fault : CompileFault}
    (h : config.perform files directory task = (.error fault, after)) (hfault : ¬ fault.IsWrite) :
    after = files := by
  rw [perform_eq] at h
  cases hjobs : config.runJobs directory task.jobs (.start files) with
  | mk result run =>
      rw [hjobs] at h
      cases result with
      | error fault' =>
          cases h
          rw [collected_of_staged hmode hjobs]
      | ok _ =>
          simp only [Run.finish] at h
          split at h
          · rename_i hwrite
            cases h
            exact absurd (Run.writeAll_isWrite hwrite) hfault
          · cases h

theorem perform_error_through (hmode : config.writeMode = .writeThrough) {files after : FileTree}
    {task : Task} {fault : CompileFault}
    (h : config.perform files directory task = (.error fault, after)) :
    ∃ run written, config.runJobs directory task.jobs (.start files) = (.error fault, run) ∧
      Run.writeAll directory (config.jobOutputs directory task.jobs (.start files))
        (.start files) = (.ok (), written) ∧
      written.files.SameFiles after ∧ (¬ fault.IsWrite → after = written.files) := by
  rw [perform_eq] at h
  cases hjobs : config.runJobs directory task.jobs (.start files) with
  | mk result run =>
      rw [hjobs] at h
      cases result with
      | error fault' =>
          cases h
          obtain ⟨written, hall, hends⟩ := runJobs_through hmode directory task.jobs (.start files)
          rw [hjobs] at hends
          refine ⟨run, written, rfl, hall, ?_⟩
          cases hends with
          | here => exact ⟨(FileTree.Evolves.refl _).sameFiles, fun _ => rfl⟩
          | unwritten hwrite =>
              exact ⟨(Run.write_error_evolves hwrite).sameFiles, fun hfault =>
                absurd (Run.write_isWrite hwrite) hfault⟩
      | ok _ =>
          dsimp only at h
          rw [(finish_of_through hmode hjobs).2] at h
          cases h

/-- A staged run that fails before its end leaves the files as they were.  A write-through run that
fails leaves them with the outputs of the earlier jobs and those that the failing job has handed
over, written in order; a write that fails can add directories. -/
def Leaves (config : Config) (files : FileTree) (directory : String) (task : Task)
    (fault : CompileFault) (after : FileTree) : Prop :=
  match config.writeMode with
  | .staged => ¬ fault.IsWrite → after = files
  | .writeThrough => ∃ earlier job later delivered middle rendered written,
    task.jobs = earlier ++ job :: later ∧
    config.Delivers directory earlier (.start files) delivered middle ∧
    config.Stops directory job middle rendered fault ∧
    Run.writeAll directory (delivered ++ rendered) (.start files) = (.ok (), written) ∧
    written.files.SameFiles after ∧ (¬ fault.IsWrite → after = written.files)

theorem perform_error_leaves (config : Config) (files : FileTree) (directory : String)
    (task : Task) (fault : CompileFault) (after : FileTree)
    (h : config.perform files directory task = (.error fault, after)) :
    config.Leaves files directory task fault after := by
  unfold Leaves
  cases hmode : config.writeMode with
  | staged => exact perform_error_staged hmode h
  | writeThrough =>
      obtain ⟨run, written, hjobs, hall, hafter⟩ := perform_error_through hmode h
      obtain ⟨earlier, job, later, delivered, middle, rendered, hsplit, hdelivers, hstops,
        houtputs⟩ := exists_stops_of_runJobs hjobs
      rw [houtputs] at hall
      exact ⟨earlier, job, later, delivered, middle, rendered, written, hsplit, hdelivers, hstops,
        hall, hafter⟩

def oneInput : FileTree := ⟨["work"], [(["work", "a.proto"], .file [])]⟩

def missingTemplate : FileTree :=
  ⟨["work"], [(["work", "a.proto"], .file (Text.Utf8.encode
      "// @generate /work/there.txt\n// @generate /work/missing.txt\nservice S \x7b\x7d")),
    (["work", "b.proto"], .file []),
    (["work", "there.txt"], .file (Text.Utf8.encode "text"))]⟩

theorem exists_error_of_isOk {files : FileTree} {task : Task}
    (h : (config.perform files directory task).1.isOk = false) :
    ∃ fault, config.perform files directory task =
      (.error fault, (config.perform files directory task).2) := by
  obtain ⟨fault, hfault⟩ := exists_eq_error_of_isOk h
  exact ⟨fault, Prod.ext hfault rfl⟩

/-- An input that is missing, or a template of an earlier input: in write-through mode what precedes
it stays. -/
theorem perform_error_leaves_missing :
    (∃ fault after, Config.default.perform oneInput "out" (.compile ["a.proto", "b.proto"]) =
        (.error fault, after) ∧ (after.read "out/a.pb.go").isOk = true ∧
      Config.default.Leaves oneInput "out" (.compile ["a.proto", "b.proto"]) fault after) ∧
    (∃ fault after, Config.default.perform missingTemplate "out"
        (.compile ["a.proto", "b.proto"]) = (.error fault, after) ∧
      (after.read "out/a.pb.go").isOk = true ∧ (after.read "out/there").isOk = true ∧
      (after.read "out/b.pb.go").isOk = false ∧
      Config.default.Leaves missingTemplate "out" (.compile ["a.proto", "b.proto"]) fault
        after) ∧
    ∃ fault after, { Config.default with writeMode := .staged }.perform oneInput "out"
        (.compile ["a.proto", "b.proto"]) = (.error fault, after) ∧
      (after.read "out/a.pb.go").isOk = false ∧
      { Config.default with writeMode := .staged }.Leaves oneInput "out"
        (.compile ["a.proto", "b.proto"]) fault after := by
  obtain ⟨fault, hfault⟩ := exists_error_of_isOk (show (Config.default.perform oneInput "out"
    (.compile ["a.proto", "b.proto"])).1.isOk = false by decide +kernel)
  obtain ⟨fault', hfault'⟩ := exists_error_of_isOk (show (Config.default.perform missingTemplate
    "out" (.compile ["a.proto", "b.proto"])).1.isOk = false by decide +kernel)
  obtain ⟨fault'', hfault''⟩ := exists_error_of_isOk (show ({ Config.default with
    writeMode := .staged }.perform oneInput "out"
      (.compile ["a.proto", "b.proto"])).1.isOk = false by decide +kernel)
  exact ⟨⟨fault, _, hfault, by decide +kernel, perform_error_leaves _ _ _ _ _ _ hfault⟩,
    ⟨fault', _, hfault', by decide +kernel, by decide +kernel, by decide +kernel,
      perform_error_leaves _ _ _ _ _ _ hfault'⟩,
    fault'', _, hfault'', by decide +kernel, perform_error_leaves _ _ _ _ _ _ hfault''⟩

end SchemaGo.Config
