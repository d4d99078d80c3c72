import SchemaGo.Proofs.Compile.Modes

/-!
# What outputs become

A run that succeeds has written all its outputs, and returns their paths.  Outputs
of one run can have the same place.  Then the last one stands there, and an earlier
one is lost unless its contents are the same.
-/

namespace SchemaGo

variable {config : Config} {directory : String} {run : Run}

namespace Run

theorem written_writeAll {outputs : List Output} {after : Run}
    (h : writeAll directory outputs run = (.ok (), after)) :
    after.written =
      run.written ++ outputs.map fun output => PathText.join directory output.path := by
  induction outputs generalizing run with
  | nil =>
      cases h
      simp
  | cons output rest ih =>
      rw [writeAll] at h
      split at h
      · cases h
      · rename_i next hwrite
        have hnext : next.written = run.written ++ [PathText.join directory output.path] := by
          simp only [write] at hwrite
          split at hwrite <;> cases hwrite
          rfl
        rw [ih h, hnext]
        simp

theorem read_of_write {output : Output} {after : Run}
    (h : run.write directory output = (.ok (), after)) :
    after.files.read (PathText.join directory output.path) = .ok output.contents := by
  simp only [write] at h
  split at h
  · rename_i hput
    cases h
    exact FileTree.read_of_put hput
  · cases h

theorem stops_writeAll {outputs : List Output} {after : Run}
    (h : writeAll directory outputs run = (.ok (), after)) {output : Output}
    (houtput : output ∈ outputs) :
    PathText.join directory output.path ≠ "" ∧
      ∀ stop ∈ run.files.stops (PathText.join directory output.path),
        after.files.entry? stop = some .directory := by
  induction outputs generalizing run with
  | nil => cases houtput
  | cons first rest ih =>
      rw [writeAll] at h
      split at h
      · cases h
      · rename_i next hwrite
        have hfirst := write_evolves hwrite
        have hrest := writeAll_evolves h
        rcases List.mem_cons.mp houtput with rfl | houtput
        · obtain ⟨hempty, hstops, -⟩ := FileTree.read_eq_ok_iff.mp (read_of_write hwrite)
          rw [hfirst.stops] at hstops
          exact ⟨hempty, fun stop hstop => hrest.directory (hstops stop hstop)⟩
        · rw [← hfirst.stops]
          exact ih h houtput

def lastAt (directory : String) (tree : FileTree) (outputs : List Output) (place : Place) :
    Option Output :=
  (outputs.filter fun output => placeIn directory tree output = place).getLast?

theorem lastAt_cons (tree : FileTree) (first : Output) (rest : List Output) (place : Place) :
    lastAt directory tree (first :: rest) place =
      (lastAt directory tree rest place).or
        (if placeIn directory tree first = place then some first else none) := by
  rw [lastAt, lastAt, List.filter_cons]
  by_cases hplace : placeIn directory tree first = place
  · simp [hplace, List.getLast?_cons]
  · simp [hplace]

theorem lastAt_eq_none_iff {tree : FileTree} {outputs : List Output} {place : Place} :
    lastAt directory tree outputs place = none ↔
      place ∉ outputs.map (placeIn directory tree) := by
  simp [lastAt]

theorem mem_of_lastAt {tree : FileTree} {outputs : List Output} {place : Place} {last : Output}
    (h : lastAt directory tree outputs place = some last) :
    last ∈ outputs ∧ placeIn directory tree last = place := by
  simpa using List.mem_filter.mp (List.mem_of_getLast? h)

theorem exists_lastAt (directory : String) (tree : FileTree) {outputs : List Output}
    {output : Output} (h : output ∈ outputs) :
    ∃ last, lastAt directory tree outputs (placeIn directory tree output) = some last := by
  refine Option.ne_none_iff_exists'.mp fun hnone => ?_
  exact lastAt_eq_none_iff.mp hnone (List.mem_map_of_mem h)

theorem entry_writeAll {outputs : List Output} {after : Run}
    (h : writeAll directory outputs run = (.ok (), after)) {place : Place} {last : Output}
    (hlast : lastAt directory run.files outputs place = some last) :
    after.files.entry? place = some (.file last.contents) := by
  induction outputs generalizing run with
  | nil => cases hlast
  | cons first rest ih =>
      rw [writeAll] at h
      split at h
      · cases h
      · rename_i next hwrite
        have hfirst := write_evolves hwrite
        have hplaces : placeIn directory next.files = placeIn directory run.files :=
          funext fun output => hfirst.placeOf _
        have hlasts : lastAt directory next.files = lastAt directory run.files := by
          funext outputs place
          rw [lastAt, hplaces, lastAt]
        rw [lastAt_cons] at hlast
        cases hrest : lastAt directory run.files rest place with
        | some later =>
            rw [hrest] at hlast
            exact ih h (by rw [hlasts, hrest]; exact hlast)
        | none =>
            rw [hrest, Option.none_or] at hlast
            split at hlast
            · rename_i hplace
              cases hlast
              rw [← hlasts, lastAt_eq_none_iff] at hrest
              obtain ⟨-, -, hentry⟩ := FileTree.read_eq_ok_iff.mp (read_of_write hwrite)
              rw [← hplace, (writeAll_evolves h).file (hplace ▸ hrest), ← hplaces]
              exact hentry
            · cases hlast

theorem read_writeAll {outputs : List Output} {after : Run}
    (h : writeAll directory outputs run = (.ok (), after)) {output last : Output}
    (houtput : output ∈ outputs)
    (hlast : lastAt directory run.files outputs (placeIn directory run.files output) = some last) :
    after.files.read (PathText.join directory output.path) = .ok last.contents := by
  have hevolves := writeAll_evolves h
  obtain ⟨hempty, hstops⟩ := stops_writeAll h houtput
  refine FileTree.read_eq_ok_iff.mpr ⟨hempty, ?_, ?_⟩
  · rw [hevolves.stops]
    exact hstops
  · rw [hevolves.placeOf]
    exact entry_writeAll h hlast

def writes (directory : String) : List Output → Run → List Output
  | [], _ => []
  | output :: rest, run =>
    match run.write directory output with
    | (.error _, _) => []
    | (.ok (), run) => output :: writes directory rest run

theorem writeAll_writes (directory : String) (outputs : List Output) (run : Run) :
    ∃ done, writeAll directory (writes directory outputs run) run = (.ok (), done) ∧
      FileTree.Evolves [] done.files (writeAll directory outputs run).2.files := by
  induction outputs generalizing run with
  | nil => exact ⟨run, rfl, .refl _⟩
  | cons output rest ih =>
      rw [writes, writeAll]
      cases hwrite : run.write directory output with
      | mk result next =>
          cases result with
          | error fault => exact ⟨run, rfl, write_error_evolves hwrite⟩
          | ok _ =>
              obtain ⟨done, hdone, hevolves⟩ := ih next
              refine ⟨done, ?_, hevolves⟩
              simp only [writeAll, hwrite]
              exact hdone

theorem writes_of_writeAll {outputs : List Output} {after : Run}
    (h : writeAll directory outputs run = (.ok (), after)) :
    writes directory outputs run = outputs := by
  induction outputs generalizing run with
  | nil => rfl
  | cons output rest ih =>
      rw [writeAll] at h
      split at h
      · cases h
      · rename_i hwrite
        simp only [writes, hwrite]
        rw [ih h]

theorem writes_subset (outputs : List Output) : writes directory outputs run ⊆ outputs := by
  induction outputs generalizing run with
  | nil => simp [writes]
  | cons first rest ih =>
      rw [writes]
      split
      · simp
      · exact List.cons_subset_cons _ ih

end Run

namespace Config

/-! ## Whole runs -/

/-- The outputs that have been written when a run ends.  A staged run that is given up writes
none. -/
def writtenOutputs (config : Config) (files : FileTree) (directory : String) (task : Task) :
    List Output :=
  match config.writeMode, (config.runJobs directory task.jobs (.start files)).1 with
  | .staged, .error _ => []
  | _, _ =>
    Run.writes directory (config.jobOutputs directory task.jobs (.start files)) (.start files)

theorem writtenOutputs_subset (config : Config) (files : FileTree) (directory : String)
    (task : Task) :
    config.writtenOutputs files directory task ⊆ config.outputsOf files directory task := by
  rw [writtenOutputs]
  split
  · simp
  · exact Run.writes_subset _

theorem writeAll_writtenOutputs (config : Config) (files : FileTree) (directory : String)
    (task : Task) :
    ∃ done, Run.writeAll directory (config.writtenOutputs files directory task) (.start files) =
        (.ok (), done) ∧
      FileTree.Evolves [] done.files (config.perform files directory task).2 := by
  rw [perform_eq, writtenOutputs]
  cases hjobs : config.runJobs directory task.jobs (.start files) with
  | mk result run =>
  cases hmode : config.writeMode with
  | staged =>
      have hcollected := collected_of_staged hmode hjobs
      cases result with
      | error fault =>
          refine ⟨.start files, rfl, ?_⟩
          rw [hcollected]
          exact .refl _
      | ok _ =>
          obtain ⟨done, hdone, hevolves⟩ := Run.writeAll_writes directory
            (config.jobOutputs directory task.jobs (.start files)) (.start files)
          refine ⟨done, hdone, ?_⟩
          cases hall : Run.writeAll directory (config.jobOutputs directory task.jobs (.start files))
              (.start files) with
          | mk result last =>
              rw [hall] at hevolves
              dsimp only
              rw [hcollected, Run.finish_collected hall]
              exact hevolves
  | writeThrough =>
      obtain ⟨done, hall, hends⟩ := runJobs_through hmode directory task.jobs (.start files)
      rw [hjobs] at hends
      dsimp only at hends ⊢
      rw [Run.writes_of_writeAll hall]
      refine ⟨done, hall, ?_⟩
      cases hends with
      | unwritten hwrite => exact Run.write_error_evolves hwrite
      | here =>
          cases result with
          | error fault => exact .refl _
          | ok _ =>
              dsimp only
              rw [(finish_of_through hmode hjobs).2]
              exact .refl _

theorem writeAll_of_perform {files after : FileTree} {task : Task} {written : List String}
    (h : config.perform files directory task = (.ok written, after)) :
    ∃ done, Run.writeAll directory (config.jobOutputs directory task.jobs (.start files))
        (.start files) = (.ok (), done) ∧ done.written = written ∧ done.files = after := by
  rw [perform_eq] at h
  cases hjobs : config.runJobs directory task.jobs (.start files) with
  | mk result run =>
  rw [hjobs] at h
  cases result with
  | error fault => cases h
  | ok _ =>
      dsimp only at h
      cases hmode : config.writeMode with
      | staged =>
          cases hall : Run.writeAll directory (config.jobOutputs directory task.jobs (.start files))
              (.start files) with
          | mk result done =>
              rw [collected_of_staged hmode hjobs, Run.finish_collected hall] at h
              cases result with
              | error fault => cases h
              | ok _ =>
                  cases h
                  exact ⟨done, rfl, rfl, rfl⟩
      | writeThrough =>
          obtain ⟨hall, hfinish⟩ := finish_of_through hmode hjobs
          rw [hfinish] at h
          cases h
          exact ⟨run, hall, rfl, rfl⟩

theorem writtenOutputs_of_perform {files after : FileTree} {task : Task} {written : List String}
    (h : config.perform files directory task = (.ok written, after)) :
    config.writtenOutputs files directory task = config.outputsOf files directory task := by
  obtain ⟨done, hall, -, -⟩ := writeAll_of_perform h
  rw [writtenOutputs]
  split
  · rename_i hjobs
    rw [perform_eq] at h
    cases hrun : config.runJobs directory task.jobs (.start files) with
    | mk result run =>
        rw [hrun] at hjobs h
        cases hjobs
        cases h
  · exact Run.writes_of_writeAll hall

/-- A run that succeeds returns the paths of its outputs, and at each of them stands the last of the
outputs with the same place.  So none is lost exactly if outputs with the same place are equal. -/
theorem perform_ok_last_output (config : Config) (files : FileTree) (directory : String)
    (task : Task) (written : List String) (after : FileTree)
    (h : config.perform files directory task = (.ok written, after)) :
    written = (config.outputsOf files directory task).map
        (fun output => PathText.join directory output.path) ∧
    (∀ output ∈ config.outputsOf files directory task, ∃ last,
      Run.lastAt directory files (config.outputsOf files directory task)
        (Run.placeIn directory files output) = some last ∧
      after.read (PathText.join directory output.path) = .ok last.contents) ∧
    ((∀ output ∈ config.outputsOf files directory task,
        after.read (PathText.join directory output.path) = .ok output.contents) ↔
      ∀ output ∈ config.outputsOf files directory task,
        ∀ other ∈ config.outputsOf files directory task,
          Run.placeIn directory files output = Run.placeIn directory files other →
            output.contents = other.contents) := by
  obtain ⟨done, hall, rfl, rfl⟩ := writeAll_of_perform h
  rw [outputsOf]
  generalize config.jobOutputs directory task.jobs (.start files) = outputs at hall ⊢
  have hread : ∀ output ∈ outputs, ∃ last,
      Run.lastAt directory files outputs (Run.placeIn directory files output) = some last ∧
        done.files.read (PathText.join directory output.path) = .ok last.contents := by
    intro output houtput
    obtain ⟨last, hlast⟩ := Run.exists_lastAt directory files houtput
    exact ⟨last, hlast, Run.read_writeAll hall houtput hlast⟩
  refine ⟨Run.written_writeAll hall, hread, ?_, ?_⟩
  · intro hkept output houtput other hother hplace
    obtain ⟨last, hlast, hlastRead⟩ := hread output houtput
    have hotherRead := Run.read_writeAll hall hother (hplace ▸ hlast)
    have hcontents := (hkept output houtput).symm.trans hlastRead
    have hcontents' := (hkept other hother).symm.trans hotherRead
    exact Except.ok.inj (hcontents.trans hcontents'.symm)
  · intro hequal output houtput
    obtain ⟨last, hlast, hlastRead⟩ := hread output houtput
    obtain ⟨hmem, hplace⟩ := Run.mem_of_lastAt hlast
    rw [hlastRead, hequal last hmem output houtput hplace]

def sameNames : FileTree :=
  ⟨["work"], [(["work", "a"], .directory), (["work", "b"], .directory),
    (["work", "a", "x.proto"], .file (Text.Utf8.encode "message M \x7b\x7d")),
    (["work", "b", "x.proto"], .file [])]⟩

theorem exists_ok_of_isOk {files : FileTree} {task : Task}
    (h : (config.perform files directory task).1.isOk = true) :
    ∃ written, config.perform files directory task =
      (.ok written, (config.perform files directory task).2) := by
  obtain ⟨written, hwritten⟩ := exists_eq_ok_of_isOk h
  exact ⟨written, Prod.ext hwritten rfl⟩

theorem perform_ok_last_output_same_names :
    ∃ written after, Config.default.perform sameNames "out"
        (.compile ["a/x.proto", "b/x.proto"]) = (.ok written, after) ∧
      written = (Config.default.outputsOf sameNames "out"
        (.compile ["a/x.proto", "b/x.proto"])).map
          (fun output => PathText.join "out" output.path) ∧
      ∀ output ∈ Config.default.outputsOf sameNames "out" (.compile ["a/x.proto", "b/x.proto"]),
        ∃ last, Run.lastAt "out" sameNames (Config.default.outputsOf sameNames "out"
            (.compile ["a/x.proto", "b/x.proto"])) (Run.placeIn "out" sameNames output) =
              some last ∧
          after.read (PathText.join "out" output.path) = .ok last.contents := by
  obtain ⟨written, hperform⟩ := exists_ok_of_isOk (show (Config.default.perform sameNames "out"
    (.compile ["a/x.proto", "b/x.proto"])).1.isOk = true by decide +kernel)
  obtain ⟨hwritten, hlast, -⟩ := perform_ok_last_output _ _ _ _ _ _ hperform
  exact ⟨written, _, hperform, hwritten, hlast⟩

theorem perform_ok_loses_output :
    (Config.default.perform sameNames "out" (.compile ["a/x.proto", "b/x.proto"])).1.isOk = true ∧
    ∃ output ∈ Config.default.outputsOf sameNames "out" (.compile ["a/x.proto", "b/x.proto"]),
      (Config.default.perform sameNames "out" (.compile ["a/x.proto", "b/x.proto"])).2.read
        (PathText.join "out" output.path) ≠ .ok output.contents := by
  decide +kernel

end Config

end SchemaGo
