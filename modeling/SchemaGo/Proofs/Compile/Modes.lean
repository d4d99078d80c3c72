import SchemaGo.Proofs.Compile.Jobs

/-!
# Modes of writing

In staged mode a run only collects outputs, and no write can fail before its end.
In write-through mode the outputs handed over so far are in the files at any time.
So a run that fails leaves nothing behind in the one mode, and in the other just
what it has handed over.
-/

namespace SchemaGo

variable {config : Config} {directory : String} {run : Run}

/-! ## Writing outputs -/

def CompileFault.IsWrite (fault : CompileFault) : Prop := ∃ path cause, fault = .write path cause

def FileTree.SameFiles (tree tree' : FileTree) : Prop :=
  ∀ place contents,
    tree'.entry? place = some (.file contents) ↔ tree.entry? place = some (.file contents)

theorem FileTree.Evolves.sameFiles {tree tree' : FileTree} (h : FileTree.Evolves [] tree tree') :
    tree.SameFiles tree' := fun _ contents => h.file (by simp) contents

namespace Run

theorem write_isWrite {output : Output} {fault : CompileFault} {after : Run}
    (h : run.write directory output = (.error fault, after)) : fault.IsWrite := by
  simp only [write] at h
  split at h
  · cases h
  · cases h
    exact ⟨_, _, rfl⟩

theorem write_of_push {mode : WriteMode} {output : Output} {fault : CompileFault} {after : Run}
    (h : run.push mode directory output = (.error fault, after)) :
    run.write directory output = (.error fault, after) := by
  cases mode with
  | writeThrough => exact h
  | staged => cases h

theorem write_error_evolves {output : Output} {fault : CompileFault} {after : Run}
    (h : run.write directory output = (.error fault, after)) :
    FileTree.Evolves [] run.files after.files := by
  simp only [write] at h
  split at h
  · cases h
  · rename_i hput
    cases h
    exact FileTree.put_error_evolves hput

theorem writeAll_append (first second : List Output) (run : Run) :
    writeAll directory (first ++ second) run =
      match writeAll directory first run with
      | (.error fault, run) => (.error fault, run)
      | (.ok (), run) => writeAll directory second run := by
  induction first generalizing run with
  | nil => rfl
  | cons output rest ih =>
      rw [List.cons_append, writeAll, writeAll]
      cases run.write directory output with
      | mk result next =>
          cases result with
          | error fault => rfl
          | ok _ => exact ih next

theorem writeAll_append_of_ok {first : List Output} {next : Run}
    (h : writeAll directory first run = (.ok (), next)) (second : List Output) :
    writeAll directory (first ++ second) run = writeAll directory second next := by
  rw [writeAll_append, h]

theorem writeAll_append_of_error {first : List Output} {fault : CompileFault} {next : Run}
    (h : writeAll directory first run = (.error fault, next)) (second : List Output) :
    writeAll directory (first ++ second) run = (.error fault, next) := by
  rw [writeAll_append, h]

def placeIn (directory : String) (tree : FileTree) (output : Output) : Place :=
  tree.placeOf (PathText.join directory output.path)

theorem write_evolves {output : Output} {result : Except CompileFault Unit} {after : Run}
    (h : run.write directory output = (result, after)) :
    FileTree.Evolves [placeIn directory run.files output] run.files after.files := by
  simp only [write] at h
  split at h
  · rename_i hput
    cases h
    exact FileTree.put_evolves hput
  · rename_i hput
    cases h
    exact (FileTree.put_error_evolves hput).mono (List.nil_subset _)

theorem writeAll_evolves {outputs : List Output} {result : Except CompileFault Unit} {after : Run}
    (h : writeAll directory outputs run = (result, after)) :
    FileTree.Evolves (outputs.map (placeIn directory run.files)) run.files after.files := by
  induction outputs generalizing run with
  | nil =>
      cases h
      exact .refl _
  | cons output rest ih =>
      rw [writeAll] at h
      split at h
      · rename_i hwrite
        cases h
        exact (write_evolves hwrite).mono (by simp)
      · rename_i next hwrite
        have hfirst := write_evolves hwrite
        have hplaces : placeIn directory next.files = placeIn directory run.files :=
          funext fun output => hfirst.placeOf _
        have hrest := ih h
        rw [hplaces] at hrest
        exact hfirst.trans hrest

theorem pending_write {output : Output} {result : Except CompileFault Unit} {after : Run}
    (h : run.write directory output = (result, after)) : after.pending = run.pending := by
  simp only [write] at h
  split at h <;> cases h <;> rfl

theorem pending_writeAll {outputs : List Output} {result : Except CompileFault Unit} {after : Run}
    (h : writeAll directory outputs run = (result, after)) : after.pending = run.pending := by
  induction outputs generalizing run with
  | nil =>
      cases h
      rfl
  | cons output rest ih =>
      rw [writeAll] at h
      split at h
      · rename_i hwrite
        cases h
        exact pending_write hwrite
      · rename_i hwrite
        rw [ih h, pending_write hwrite]

theorem writeAll_isWrite {outputs : List Output} {fault : CompileFault} {after : Run}
    (h : writeAll directory outputs run = (.error fault, after)) : fault.IsWrite := by
  induction outputs generalizing run with
  | nil => cases h
  | cons output rest ih =>
      rw [writeAll] at h
      split at h
      · rename_i hwrite
        cases h
        exact write_isWrite hwrite
      · exact ih h

theorem finish_collected {tree : FileTree} {outputs : List Output} {after : Run}
    {result : Except CompileFault Unit}
    (h : writeAll directory outputs (.start tree) = (result, after)) :
    finish ⟨tree, [], outputs⟩ directory =
      (result.map fun _ => after.written, after.files) := by
  have hfinish : finish ⟨tree, [], outputs⟩ directory =
      match writeAll directory outputs (.start tree) with
      | (.error fault, run) => (.error fault, run.files)
      | (.ok (), run) => (.ok run.written, run.files) := rfl
  rw [hfinish, h]
  cases result <;> rfl

theorem finish_written (h : run.pending = []) :
    run.finish directory = (.ok run.written, run.files) := by
  simp [finish, h, writeAll]

end Run

namespace Config

/-! ## Faults -/

theorem not_isWrite_of_prepare {files : FileTree} {job : Job} {fault : CompileFault}
    (h : config.prepare files job = .error fault) : ¬ fault.IsWrite := by
  rintro ⟨path, cause, rfl⟩
  cases job with
  | file ast file => cases h
  | input input =>
      simp only [prepare, lowerInput, link] at h
      cases hlink : Schema.link files config.includeDirectory input with
      | error fault => simp [hlink, Except.map] at h
      | ok linked =>
          cases hlower : linked.lower files 0 <;> simp [hlink, hlower, Except.map] at h

/-! ## Staged runs -/

theorem emitKinds_staged (hmode : config.writeMode = .staged) (directory : String) (ast : Ast)
    (file : Ast.File) (kinds : List OutputKind) (run : Run) :
    (config.emitKinds directory ast file kinds run).2 =
        { run with pending := run.pending ++ config.kindOutputs directory ast file kinds run } ∧
      ∀ fault, (config.emitKinds directory ast file kinds run).1 = .error fault →
        ¬ fault.IsWrite := by
  induction kinds generalizing run with
  | nil => simp [emitKinds, kindOutputs]
  | cons kind rest ih =>
      simp only [emitKinds_cons, kindOutputs, emit, hmode, Run.push]
      cases config.renderOutput run.files ast file kind with
      | error fault =>
          refine ⟨by simp, ?_⟩
          rintro _ hfault ⟨path, cause, rfl⟩
          cases hfault
      | ok output =>
          obtain ⟨hrun, hfault⟩ := ih { run with pending := run.pending ++ [output] }
          refine ⟨?_, hfault⟩
          dsimp only
          rw [hrun, List.append_assoc]
          rfl

theorem runJobs_staged (hmode : config.writeMode = .staged) (directory : String)
    (jobs : List Job) (run : Run) :
    (config.runJobs directory jobs run).2 =
        { run with pending := run.pending ++ config.jobOutputs directory jobs run } ∧
      ∀ fault, (config.runJobs directory jobs run).1 = .error fault → ¬ fault.IsWrite := by
  induction jobs generalizing run with
  | nil => simp [runJobs, jobOutputs]
  | cons job rest ih =>
      rw [runJobs, jobOutputs]
      cases hprepare : config.prepare run.files job with
      | error fault =>
          refine ⟨by simp, ?_⟩
          rintro _ hfault
          cases hfault
          exact not_isWrite_of_prepare hprepare
      | ok prepared =>
          obtain ⟨ast, file⟩ := prepared
          obtain ⟨hrun, hfault⟩ := emitKinds_staged hmode directory ast file
            file.outputKinds run
          dsimp only [emitFile]
          cases hemit : config.emitKinds directory ast file file.outputKinds run with
          | mk result next =>
              rw [hemit] at hrun hfault
              cases result with
              | error fault => exact ⟨by simpa using hrun, by simpa using hfault⟩
              | ok _ =>
                  obtain ⟨hrest, hfaults⟩ := ih next
                  refine ⟨?_, hfaults⟩
                  dsimp only at hrun ⊢
                  rw [hrest, hrun, List.append_assoc]

theorem collected_of_staged (hmode : config.writeMode = .staged) {files : FileTree}
    {jobs : List Job} {result : Except CompileFault Unit} {run : Run}
    (h : config.runJobs directory jobs (.start files) = (result, run)) :
    run = ⟨files, [], config.jobOutputs directory jobs (.start files)⟩ := by
  have hrun := (runJobs_staged hmode directory jobs (.start files)).1
  rw [h] at hrun
  exact hrun

/-! ## Write-through runs -/

/-- How a run ends that has written everything handed over: at this point, or at a write that
fails. -/
inductive EndsAt (directory : String) (written : Run) :
    Except CompileFault Unit → Run → Prop
  | here {result : Except CompileFault Unit}
      (hfault : ∀ fault, result = .error fault → ¬ fault.IsWrite) :
      EndsAt directory written result written
  | unwritten {output : Output} {fault : CompileFault} {after : Run}
      (hwrite : written.write directory output = (.error fault, after)) :
      EndsAt directory written (.error fault) after

theorem emitKinds_through (hmode : config.writeMode = .writeThrough) (directory : String)
    (ast : Ast) (file : Ast.File) (kinds : List OutputKind) (run : Run) :
    ∃ written, Run.writeAll directory (config.kindOutputs directory ast file kinds run) run =
        (.ok (), written) ∧
      EndsAt directory written (config.emitKinds directory ast file kinds run).1
        (config.emitKinds directory ast file kinds run).2 := by
  induction kinds generalizing run with
  | nil => exact ⟨run, rfl, .here (by simp [emitKinds])⟩
  | cons kind rest ih =>
      simp only [emitKinds_cons, kindOutputs, emit, hmode, Run.push]
      cases config.renderOutput run.files ast file kind with
      | error fault =>
          refine ⟨run, rfl, .here ?_⟩
          rintro _ hfault ⟨path, cause, rfl⟩
          cases hfault
      | ok output =>
          dsimp only
          cases hwrite : run.write directory output with
          | mk result next =>
              cases result with
              | error fault => exact ⟨run, rfl, .unwritten hwrite⟩
              | ok _ =>
                  obtain ⟨written, hall, hends⟩ := ih next
                  refine ⟨written, ?_, hends⟩
                  rw [Run.writeAll, hwrite]
                  exact hall

theorem runJobs_through (hmode : config.writeMode = .writeThrough) (directory : String)
    (jobs : List Job) (run : Run) :
    ∃ written, Run.writeAll directory (config.jobOutputs directory jobs run) run =
        (.ok (), written) ∧
      EndsAt directory written (config.runJobs directory jobs run).1
        (config.runJobs directory jobs run).2 := by
  induction jobs generalizing run with
  | nil => exact ⟨run, rfl, .here (by simp [runJobs])⟩
  | cons job rest ih =>
      rw [runJobs, jobOutputs]
      cases hprepare : config.prepare run.files job with
      | error fault =>
          refine ⟨run, rfl, .here ?_⟩
          rintro _ hfault
          cases hfault
          exact not_isWrite_of_prepare hprepare
      | ok prepared =>
          obtain ⟨ast, file⟩ := prepared
          obtain ⟨written, hall, hends⟩ := emitKinds_through hmode directory ast file
            file.outputKinds run
          dsimp only [emitFile]
          cases hemit : config.emitKinds directory ast file file.outputKinds run with
          | mk result next =>
              rw [hemit] at hends
              cases result with
              | error fault => exact ⟨written, by simpa using hall, hends⟩
              | ok _ =>
                  cases hends
                  obtain ⟨last, hrest, hends⟩ := ih next
                  exact ⟨last, by rw [Run.writeAll_append_of_ok hall, hrest], hends⟩

theorem finish_of_through (hmode : config.writeMode = .writeThrough) {files : FileTree}
    {jobs : List Job} {run : Run}
    (h : config.runJobs directory jobs (.start files) = (.ok (), run)) :
    Run.writeAll directory (config.jobOutputs directory jobs (.start files)) (.start files) =
        (.ok (), run) ∧
      run.finish directory = (.ok run.written, run.files) := by
  obtain ⟨written, hall, hends⟩ := runJobs_through hmode directory jobs (.start files)
  rw [h] at hends
  cases hends
  exact ⟨hall, Run.finish_written (Run.pending_writeAll hall)⟩

end Config

end SchemaGo
