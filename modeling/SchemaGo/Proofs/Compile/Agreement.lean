import SchemaGo.Proofs.Compile.Modes

/-!
# When both modes do the same

Side by side, a staged and a write-through run render the same outputs as long as
what has been written makes no difference to what is read.  Then both succeed or
neither does, and they leave the same files.
-/

namespace SchemaGo

variable {config : Config} {directory : String} {tree : FileTree}

/-! ## Reads that writing does not disturb -/

/-- Writing the outputs makes no difference to reading the path: it does not lead to an output, and
it does not lead to a file by way of a directory that is made for them. -/
structure FileTree.Undisturbed (tree : FileTree) (directory : String) (outputs : List Output)
    (path : String) : Prop where
  place : ∀ output ∈ outputs, tree.placeOf path ≠ tree.placeOf (PathText.join directory output.path)
  stops : ∀ contents, tree.entry? (tree.placeOf path) = some (.file contents) →
    ∀ stop ∈ tree.stops path, tree.entry? stop = none →
      FileTree.entry? (Run.writeAll directory outputs (.start tree)).2.files stop ≠ some .directory

theorem FileTree.SameRead.symm {tree' : FileTree} {path : String} (h : tree.SameRead tree' path) :
    tree'.SameRead tree path := Eq.symm h

theorem FileTree.Undisturbed.sameRead {written more : List Output} {path : String} {run : Run}
    (h : tree.Undisturbed directory (written ++ more) path)
    (hrun : Run.writeAll directory written (.start tree) = (.ok (), run)) :
    tree.SameRead run.files path := by
  have hevolves : FileTree.Evolves (written.map (Run.placeIn directory tree)) tree run.files :=
    Run.writeAll_evolves hrun
  have hplace : tree.placeOf path ∉ written.map (Run.placeIn directory tree) := by
    intro hmem
    obtain ⟨output, houtput, heq⟩ := List.mem_map.mp hmem
    exact h.place output (List.mem_append_left _ houtput) heq.symm
  have hlater : FileTree.Evolves (more.map (Run.placeIn directory run.files)) run.files
      (Run.writeAll directory (written ++ more) (.start tree)).2.files := by
    rw [Run.writeAll_append_of_ok hrun]
    exact Run.writeAll_evolves rfl
  rw [FileTree.SameRead]
  cases hread : tree.read path with
  | ok contents => rw [hevolves.read hread hplace]
  | error fault =>
      cases hread' : run.files.read path with
      | error fault' => rfl
      | ok contents =>
          have hback := hevolves.read_of_read hread' hplace
            fun hfile stop hstop hnone hmade =>
              h.stops contents hfile stop hstop hnone (hlater.directory hmade)
          rw [hread] at hback
          cases hback

/-! ## Runs side by side -/

namespace Config

def inMode (config : Config) (mode : WriteMode) : Config := { config with writeMode := mode }

@[simp] theorem writeMode_inMode (config : Config) (mode : WriteMode) :
    (config.inMode mode).writeMode = mode := rfl

@[simp] theorem prepare_inMode (config : Config) (mode : WriteMode) :
    (config.inMode mode).prepare = config.prepare := by
  funext files job
  cases job <;> rfl

@[simp] theorem renderOutput_inMode (config : Config) (mode : WriteMode) :
    (config.inMode mode).renderOutput = config.renderOutput := by
  funext files ast file kind
  cases kind <;> rfl

@[simp] theorem traceJob_inMode (config : Config) (mode : WriteMode) :
    (config.inMode mode).traceJob = config.traceJob := by
  funext files job
  cases job <;> rfl

@[simp] theorem traceOutput_inMode (config : Config) (mode : WriteMode) :
    (config.inMode mode).traceOutput = config.traceOutput := by
  funext ast file kind files
  cases kind <;> rfl

structure Abreast (directory : String) (tree : FileTree) (outputs : List Output)
    (staged through : Run) : Prop where
  staged : staged = ⟨tree, [], outputs⟩
  through : Run.writeAll directory outputs (.start tree) = (.ok (), through)

def sideOf (staged through : Run) : WriteMode → Run
  | .staged => staged
  | .writeThrough => through

/-- Both runs get through with the same outputs, or neither can succeed. -/
inductive Agree (directory : String) (tree : FileTree) (outputs : List Output) :
    Except CompileFault Unit × Run → Except CompileFault Unit × Run → Prop
  | both {staged through : Run} (h : Abreast directory tree outputs staged through) :
      Agree directory tree outputs (.ok (), staged) (.ok (), through)
  | neither {staged through : Except CompileFault Unit × Run}
      (hstaged : staged.1 = .ok () →
        (Run.writeAll directory staged.2.pending (.start tree)).1.isOk = false)
      (hthrough : through.1.isOk = false) :
      Agree directory tree outputs staged through

variable {written outputs : List Output} {staged through : Run}

theorem Abreast.trace_eq {α : Type} {computation : FileTree → Traced α}
    (h : Abreast directory tree written staged through) (hfront : written <+: outputs)
    (hdetermined : Traced.Determined computation) (mode : WriteMode)
    (hreads : ∀ path ∈ (computation (sideOf staged through mode).files).reads,
      tree.Undisturbed directory outputs path) :
    computation through.files = computation tree := by
  obtain ⟨more, rfl⟩ := hfront
  have hsame : ∀ path ∈ (computation (sideOf staged through mode).files).reads,
      tree.SameRead through.files path := fun path hpath => (hreads path hpath).sameRead h.through
  have hfiles : staged.files = tree := by rw [h.staged]
  cases mode with
  | staged =>
      rw [sideOf, hfiles] at hsame
      exact hdetermined tree through.files hsame
  | writeThrough =>
      exact (hdetermined through.files tree fun path hpath => (hsame path hpath).symm).symm

theorem toOption_eq {α : Type} {ε : Type} {first second : Except ε α}
    (h : first.toOption = second.toOption) :
    (∃ fault fault', first = .error fault ∧ second = .error fault') ∨
      ∃ value, first = .ok value ∧ second = .ok value := by
  cases first <;> cases second <;> simp_all [Except.toOption]

inductive Emitted (config : Config) (directory : String) (tree : FileTree) (ast : Ast)
    (file : Ast.File) (kind : OutputKind) (written : List Output) (staged through : Run) : Prop
  | unrendered {fault fault' : CompileFault}
      (hstaged : (config.inMode .staged).emit directory ast file kind staged =
        (.error fault, staged))
      (hthrough : (config.inMode .writeThrough).emit directory ast file kind through =
        (.error fault', through))
  | handedOver {output : Output} {staged' through' : Run}
      (hstaged : (config.inMode .staged).emit directory ast file kind staged =
        (.ok output, staged'))
      (hthrough : (config.inMode .writeThrough).emit directory ast file kind through =
        (.ok output, through'))
      (hnext : Abreast directory tree (written ++ [output]) staged' through')
  | unwritten {output : Output} {staged' through' : Run} {fault : CompileFault}
      (hstaged : (config.inMode .staged).emit directory ast file kind staged =
        (.ok output, staged'))
      (hthrough : (config.inMode .writeThrough).emit directory ast file kind through =
        (.error fault, through'))
      (hpending : staged'.pending = written ++ [output])
      (hall : Run.writeAll directory (written ++ [output]) (.start tree) = (.error fault, through'))

theorem Abreast.emitted (h : Abreast directory tree written staged through)
    (hfront : written <+: outputs) (ast : Ast) (file : Ast.File) (kind : OutputKind)
    (mode : WriteMode)
    (hreads : ∀ path ∈ (config.traceOutput ast file kind (sideOf staged through mode).files).reads,
      tree.Undisturbed directory outputs path) :
    Emitted config directory tree ast file kind written staged through := by
  have htrace := h.trace_eq hfront (config.determined_traceOutput ast file kind) mode hreads
  have hrender : (config.renderOutput tree ast file kind).toOption =
      (config.renderOutput through.files ast file kind).toOption := by
    rw [← config.result_traceOutput, ← config.result_traceOutput, htrace]
  obtain ⟨rfl, hwritten⟩ := h
  have hall := Run.writeAll_append_of_ok hwritten
  rcases toOption_eq hrender with ⟨fault, fault', hstaged, hthrough⟩ | ⟨output, hstaged, hthrough⟩
  · have hstaged' : (config.inMode .staged).emit directory ast file kind ⟨tree, [], written⟩ =
        (.error (.template fault), ⟨tree, [], written⟩) := by
      simp only [Config.emit, renderOutput_inMode, hstaged]
    have hthrough' : (config.inMode .writeThrough).emit directory ast file kind through =
        (.error (.template fault'), through) := by
      simp only [Config.emit, renderOutput_inMode, hthrough]
    exact .unrendered hstaged' hthrough'
  · have hcollect : (config.inMode .staged).emit directory ast file kind ⟨tree, [], written⟩ =
        (.ok output, ⟨tree, [], written ++ [output]⟩) := by
      simp only [Config.emit, renderOutput_inMode, hstaged, writeMode_inMode, Run.push]
    cases hwrite : through.write directory output with
    | mk result through' =>
        cases result with
        | error fault =>
            have hemit : (config.inMode .writeThrough).emit directory ast file kind through =
                (.error fault, through') := by
              simp only [Config.emit, renderOutput_inMode, hthrough, writeMode_inMode, Run.push,
                hwrite]
            refine .unwritten hcollect hemit rfl ?_
            rw [hall, Run.writeAll, hwrite]
        | ok _ =>
            have hemit : (config.inMode .writeThrough).emit directory ast file kind through =
                (.ok output, through') := by
              simp only [Config.emit, renderOutput_inMode, hthrough, writeMode_inMode, Run.push,
                hwrite]
            refine .handedOver hcollect hemit ⟨rfl, ?_⟩
            rw [hall, Run.writeAll, hwrite]
            rfl

theorem sideOf_eq {α : Type} {f : WriteMode → Run → α × Run} {result : α}
    {staged' through' : Run} (hstaged : f .staged staged = (result, staged'))
    (hthrough : f .writeThrough through = (result, through')) (mode : WriteMode) :
    f mode (sideOf staged through mode) = (result, sideOf staged' through' mode) := by
  cases mode with
  | staged => exact hstaged
  | writeThrough => exact hthrough

theorem isOk_writeAll_append {run : Run} (more : List Output)
    (h : (Run.writeAll directory outputs run).1.isOk = false) :
    (Run.writeAll directory (outputs ++ more) run).1.isOk = false := by
  cases hall : Run.writeAll directory outputs run with
  | mk result next =>
      rw [hall] at h
      cases result with
      | error fault =>
          rw [Run.writeAll_append_of_error hall]
          rfl
      | ok _ => cases h

theorem Abreast.emitKinds (h : Abreast directory tree written staged through)
    (ast : Ast) (file : Ast.File) (kinds : List OutputKind) (mode : WriteMode)
    (hfront : written ++ (config.inMode mode).kindOutputs directory ast file kinds
      (sideOf staged through mode) <+: outputs)
    (hreads : ∀ path ∈ (config.inMode mode).kindReads directory ast file kinds
      (sideOf staged through mode), tree.Undisturbed directory outputs path) :
    Agree directory tree (written ++ (config.inMode mode).kindOutputs directory ast file kinds
        (sideOf staged through mode))
      ((config.inMode .staged).emitKinds directory ast file kinds staged)
      ((config.inMode .writeThrough).emitKinds directory ast file kinds through) := by
  induction kinds generalizing written staged through with
  | nil =>
      rw [kindOutputs, List.append_nil]
      exact .both h
  | cons kind rest ih =>
      rw [kindReads, traceOutput_inMode, List.forall_mem_append] at hreads
      have hemitted := h.emitted ((List.prefix_append _ _).trans hfront) ast file kind mode hreads.1
      rw [emitKinds_cons, emitKinds_cons]
      cases hemitted with
      | unrendered hstaged hthrough =>
          rw [hstaged, hthrough]
          exact .neither (by simp) rfl
      | handedOver hstaged hthrough hnext =>
          have hside : (config.inMode mode).emit directory ast file kind
              (sideOf staged through mode) = _ :=
            sideOf_eq (f := fun mode => (config.inMode mode).emit directory ast file kind)
              hstaged hthrough mode
          rw [hside] at hreads
          rw [kindOutputs, hside] at hfront ⊢
          rw [hstaged, hthrough]
          dsimp only at hfront hreads ⊢
          rw [List.append_cons] at hfront ⊢
          exact ih hnext hfront hreads.2
      | unwritten hstaged hthrough hpending hall =>
          rw [hstaged, hthrough]
          refine .neither (fun _ => ?_) rfl
          have hmode := config.writeMode_inMode .staged
          rw [(emitKinds_staged hmode directory ast file rest _).1, hpending]
          exact isOk_writeAll_append _ (by rw [hall]; rfl)

theorem Abreast.runJobs (h : Abreast directory tree written staged through)
    (jobs : List Job) (mode : WriteMode)
    (hfront : written ++ (config.inMode mode).jobOutputs directory jobs
      (sideOf staged through mode) <+: outputs)
    (hreads : ∀ path ∈ (config.inMode mode).jobReads directory jobs
      (sideOf staged through mode), tree.Undisturbed directory outputs path) :
    Agree directory tree (written ++ (config.inMode mode).jobOutputs directory jobs
        (sideOf staged through mode))
      ((config.inMode .staged).runJobs directory jobs staged)
      ((config.inMode .writeThrough).runJobs directory jobs through) := by
  induction jobs generalizing written staged through with
  | nil =>
      rw [jobOutputs, List.append_nil]
      exact .both h
  | cons job rest ih =>
      rw [jobReads, traceJob_inMode, prepare_inMode, List.forall_mem_append] at hreads
      have htrace := h.trace_eq ((List.prefix_append _ _).trans hfront)
        (config.determined_traceJob job) mode hreads.1
      have hprepare : (config.prepare tree job).toOption =
          (config.prepare through.files job).toOption := by
        rw [← config.result_traceJob, ← config.result_traceJob, htrace]
      have hfiles : staged.files = tree := by rw [h.staged]
      rw [Config.runJobs, Config.runJobs, prepare_inMode, prepare_inMode, hfiles]
      rcases toOption_eq hprepare with
        ⟨fault, fault', hstaged, hthrough⟩ | ⟨⟨ast, file⟩, hstaged, hthrough⟩
      · rw [hstaged, hthrough]
        exact .neither (by simp) rfl
      · have hside : config.prepare (sideOf staged through mode).files job = .ok (ast, file) := by
          cases mode with
          | staged => rw [sideOf, hfiles, hstaged]
          | writeThrough => rw [sideOf, hthrough]
        rw [hside] at hreads
        rw [jobOutputs, prepare_inMode, hside] at hfront ⊢
        rw [hstaged, hthrough]
        dsimp only [emitFile] at hfront hreads ⊢
        rw [List.forall_mem_append] at hreads
        have hkinds := h.emitKinds ast file file.outputKinds mode
          (((List.prefix_append_right_inj written).mpr (List.prefix_append _ _)).trans hfront)
          hreads.2.1
        cases hs : (config.inMode .staged).emitKinds directory ast file file.outputKinds staged with
        | mk result staged' =>
        cases ht : (config.inMode .writeThrough).emitKinds directory ast file file.outputKinds
            through with
        | mk result' through' =>
        rw [hs, ht] at hkinds
        cases hkinds with
        | both hnext =>
            have hside : (config.inMode mode).emitKinds directory ast file file.outputKinds
                (sideOf staged through mode) = _ :=
              sideOf_eq (f := fun mode =>
                (config.inMode mode).emitKinds directory ast file file.outputKinds) hs ht mode
            rw [hside, ← List.append_assoc] at hfront
            rw [hside] at hreads
            rw [hside, ← List.append_assoc]
            exact ih hnext hfront hreads.2.2
        | neither hstaged' hthrough' =>
            cases result' with
            | ok _ => cases hthrough'
            | error fault' =>
                cases result with
                | error fault => exact .neither (by simp) rfl
                | ok _ =>
                    refine .neither (fun _ => ?_) rfl
                    have hmode := config.writeMode_inMode .staged
                    rw [(runJobs_staged hmode directory rest staged').1]
                    exact isOk_writeAll_append _ (hstaged' rfl)

/-! ## The modes compared -/

theorem finish_collected_ne {written : List String} {after : FileTree}
    (h : (Run.writeAll directory outputs (.start tree)).1.isOk = false) :
    Run.finish ⟨tree, [], outputs⟩ directory ≠ (.ok written, after) := by
  cases hall : Run.writeAll directory outputs (.start tree) with
  | mk result last =>
      rw [hall] at h
      rw [Run.finish_collected hall]
      cases result with
      | error fault =>
          intro heq
          cases heq
      | ok _ => cases h

theorem Agree.perform_iff {task : Task} {outputs : List Output}
    (h : Agree directory tree outputs
      ((config.inMode .staged).runJobs directory task.jobs (.start tree))
      ((config.inMode .writeThrough).runJobs directory task.jobs (.start tree)))
    (written : List String) (after : FileTree) :
    (config.inMode .staged).perform tree directory task = (.ok written, after) ↔
      (config.inMode .writeThrough).perform tree directory task = (.ok written, after) := by
  have hnever : ∀ (fault : CompileFault) (run : Run), run.abort fault ≠ (.ok written, after) := by
    intro fault run heq
    cases heq
  rw [perform_eq, perform_eq]
  cases hs : (config.inMode .staged).runJobs directory task.jobs (.start tree) with
  | mk result staged =>
  cases ht : (config.inMode .writeThrough).runJobs directory task.jobs (.start tree) with
  | mk result' through =>
  rw [hs, ht] at h
  cases h with
  | both hnext =>
      obtain ⟨rfl, hall⟩ := hnext
      dsimp only
      rw [Run.finish_collected hall, (finish_of_through (config.writeMode_inMode _) ht).2]
      rfl
  | neither hstaged hthrough =>
      cases result' with
      | ok _ => cases hthrough
      | error fault' =>
          refine iff_of_false ?_ (hnever fault' through)
          cases result with
          | error fault => exact hnever fault staged
          | ok _ =>
              have hfails := hstaged rfl
              have hcollected := collected_of_staged (config.writeMode_inMode _) hs
              dsimp only at hfails ⊢
              rw [hcollected] at hfails ⊢
              exact finish_collected_ne hfails

/-- If what a run tries to read, in its own mode, is not disturbed by what it writes, then it
succeeds in staged mode just as it does in write-through mode. -/
theorem perform_staged_iff_through (config : Config) (files : FileTree) (directory : String)
    (task : Task)
    (h : ∀ path ∈ config.readsOf files directory task,
      files.Undisturbed directory (config.outputsOf files directory task) path)
    (written : List String) (after : FileTree) :
    (config.inMode .staged).perform files directory task = (.ok written, after) ↔
      (config.inMode .writeThrough).perform files directory task = (.ok written, after) := by
  have hstart : Abreast directory files [] (.start files) (.start files) := ⟨rfl, rfl⟩
  have hself : config.inMode config.writeMode = config := rfl
  have hside : ∀ mode, sideOf (.start files) (.start files) mode = .start files := by
    intro mode
    cases mode <;> rfl
  have hfront : [] ++ (config.inMode config.writeMode).jobOutputs directory task.jobs
      (sideOf (.start files) (.start files) config.writeMode) <+:
        config.jobOutputs directory task.jobs (.start files) := by
    rw [hside, hself]
    exact List.prefix_rfl
  exact (hstart.runJobs task.jobs config.writeMode hfront (by rwa [hside, hself])).perform_iff
    written after

def twoInputs : FileTree :=
  ⟨["work"], [(["work", "a.proto"], .file []), (["work", "b.proto"], .file [])]⟩

theorem undisturbed_of_stops {outputs : List Output} {path : String}
    (hplace : ∀ output ∈ outputs,
      tree.placeOf path ≠ tree.placeOf (PathText.join directory output.path))
    (hstops : ∀ stop ∈ tree.stops path, tree.entry? stop ≠ none) :
    tree.Undisturbed directory outputs path :=
  ⟨hplace, fun _ _ stop hstop hnone => absurd hnone (hstops stop hstop)⟩

theorem perform_staged_iff_through_two :
    ((Config.default.inMode .staged).perform twoInputs "out"
      (.compile ["a.proto", "b.proto"])).1.isOk = true ∧
    ∀ written after, (Config.default.inMode .staged).perform twoInputs "out"
        (.compile ["a.proto", "b.proto"]) = (.ok written, after) ↔
      (Config.default.inMode .writeThrough).perform twoInputs "out"
        (.compile ["a.proto", "b.proto"]) = (.ok written, after) := by
  refine ⟨by decide +kernel, perform_staged_iff_through _ _ _ _ fun path hpath => ?_⟩
  have happart : ∀ path ∈ Config.default.readsOf twoInputs "out" (.compile ["a.proto", "b.proto"]),
      (∀ output ∈ Config.default.outputsOf twoInputs "out" (.compile ["a.proto", "b.proto"]),
          twoInputs.placeOf path ≠ twoInputs.placeOf (PathText.join "out" output.path)) ∧
        ∀ stop ∈ twoInputs.stops path, twoInputs.entry? stop ≠ none := by
    decide +kernel
  exact undisturbed_of_stops (happart path hpath).1 (happart path hpath).2

/-- The output of the first input makes the directory by way of which the second one is found. -/
theorem perform_modes_differ_by_directory :
    (∀ mode, ∀ path ∈ (Config.default.inMode mode).readsOf twoInputs "out"
        (.compile ["a.proto", "out/../b.proto"]),
      ∀ output ∈ (Config.default.inMode mode).outputsOf twoInputs "out"
        (.compile ["a.proto", "out/../b.proto"]),
      twoInputs.placeOf path ≠ twoInputs.placeOf (PathText.join "out" output.path)) ∧
    ((Config.default.inMode .writeThrough).perform twoInputs "out"
      (.compile ["a.proto", "out/../b.proto"])).1.isOk = true ∧
    ((Config.default.inMode .staged).perform twoInputs "out"
      (.compile ["a.proto", "out/../b.proto"])).1.isOk = false := by
  refine ⟨?_, by decide +kernel, by decide +kernel⟩
  intro mode
  cases mode with
  | staged => decide +kernel
  | writeThrough => decide +kernel

end Config

end SchemaGo
