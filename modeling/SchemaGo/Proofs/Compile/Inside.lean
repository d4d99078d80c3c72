import SchemaGo.Proofs.Compile.Written
import SchemaGo.Proofs.Path.FileName

/-!
# Where outputs are written

The path of an output is that of the package of its file, followed by a name.  Nothing
keeps the package path from leading out of the output directory; the name alone never
does, unless the configured extension makes it.
-/

namespace SchemaGo

open SchemaGo.PathText
open SchemaGo.Text (splitOn)

def FileTree.IsBelow (tree : FileTree) (directory path : String) : Prop :=
  IsInside path ∧ ∃ names : List String, names ≠ [] ∧ (∀ name ∈ names, IsName name) ∧
    tree.placeOf (join directory path) = tree.placeOf directory ++ names

theorem FileTree.isBelow_iff (tree : FileTree) (directory : String) {path last : String}
    (hlast : (splitOn '/' path).getLast? = some last) (hname : IsName last) :
    tree.IsBelow directory path ↔ IsInside path := by
  refine ⟨And.left, fun hinside => ⟨hinside, ?_⟩⟩
  obtain ⟨habsolute, hup⟩ := hinside
  have hmem : last ∈ (splitOn '/' path).filter fun segment => !isIdle segment :=
    List.mem_filter.mpr ⟨List.mem_of_getLast? hlast, by simp [hname.1]⟩
  refine ⟨_, List.ne_nil_of_mem hmem, fun name hfilter => ?_, ?_⟩
  · obtain ⟨hsegment, hidle⟩ := List.mem_filter.mp hfilter
    refine ⟨by simpa using hidle, ?_⟩
    rintro rfl
    exact hup hsegment
  · rw [tree.placeOf_join habsolute, FileTree.foldl_nextPlace hup]

namespace Config

variable {config : Config} {directory : String} {run : Run} {output : Output}

/-! ## Where outputs come from -/

def outputName (config : Config) (file : Ast.File) : OutputKind → String
  | .primary => file.fileName ++ config.outputExtension
  | .template name => Template.outputName name

theorem path_of_renderOutput {files : FileTree} {ast : Ast} {file : Ast.File} {kind : OutputKind}
    (h : config.renderOutput files ast file kind = .ok output) :
    output.path = join file.filePath (config.outputName file kind) ∧
      (kind ≠ .primary → '/' ∉ (config.outputName file kind).toList) := by
  cases kind with
  | primary =>
      cases h
      exact ⟨rfl, fun hkind => absurd rfl hkind⟩
  | template name =>
      simp only [renderOutput] at h
      split at h
      · cases h
      · rename_i path hlocate
        split at h
        · cases h
        · rename_i contents hrender
          cases h
          exact ⟨rfl, fun _ => Template.slash_not_mem_outputName hlocate hrender⟩

theorem exists_rendered_of_mem_kindOutputs {ast : Ast} {file : Ast.File} {kinds : List OutputKind}
    (h : output ∈ config.kindOutputs directory ast file kinds run) :
    ∃ kind ∈ kinds, ∃ files, config.renderOutput files ast file kind = .ok output := by
  induction kinds generalizing run with
  | nil => cases h
  | cons kind rest ih =>
      rw [kindOutputs] at h
      split at h
      · cases h
      · rename_i first next hemit
        rcases List.mem_cons.mp h with rfl | h
        · refine ⟨kind, List.mem_cons_self, run.files, ?_⟩
          simp only [emit] at hemit
          split at hemit
          · cases hemit
          · split at hemit <;> cases hemit
            assumption
        · obtain ⟨later, hmem, hrendered⟩ := ih h
          exact ⟨later, List.mem_cons_of_mem _ hmem, hrendered⟩

theorem exists_rendered_of_mem_jobOutputs {jobs : List Job}
    (h : output ∈ config.jobOutputs directory jobs run) :
    ∃ job ∈ jobs, ∃ files ast file, config.prepare files job = .ok (ast, file) ∧
      ∃ kind ∈ file.outputKinds, ∃ later, config.renderOutput later ast file kind = .ok output := by
  induction jobs generalizing run with
  | nil => cases h
  | cons job rest ih =>
      rw [jobOutputs] at h
      split at h
      · cases h
      · rename_i ast file hprepare
        rcases List.mem_append.mp h with h | h
        · exact ⟨job, List.mem_cons_self, run.files, ast, file, hprepare,
            exists_rendered_of_mem_kindOutputs h⟩
        · split at h
          · cases h
          · obtain ⟨later, hmem, hrest⟩ := ih h
            exact ⟨later, List.mem_cons_of_mem _ hmem, hrest⟩

theorem exists_read_of_mem_writtenOutputs {files : FileTree} {task : Task}
    (h : output ∈ config.writtenOutputs files directory task) :
    ∃ contents, (config.perform files directory task).2.read (join directory output.path) =
      .ok contents := by
  obtain ⟨done, hall, hevolves⟩ := config.writeAll_writtenOutputs files directory task
  obtain ⟨last, hlast⟩ := Run.exists_lastAt directory files h
  exact ⟨last.contents, hevolves.read (Run.read_writeAll hall h hlast) List.not_mem_nil⟩

theorem exists_last_of_mem_writtenOutputs {files : FileTree} {task : Task}
    (h : output ∈ config.writtenOutputs files directory task) :
    ∃ last, (splitOn '/' output.path).getLast? = some last ∧ IsName last := by
  obtain ⟨contents, hread⟩ := exists_read_of_mem_writtenOutputs h
  rw [← getLast?_splitOn_join directory output.path]
  exact FileTree.exists_last_of_read hread

/-! ## What leads out of the directory -/

theorem isInside_path_iff {files : FileTree} {task : Task} {file : Ast.File} {kind : OutputKind}
    (h : output ∈ config.writtenOutputs files directory task)
    (hpath : output.path = join file.filePath (config.outputName file kind))
    (hslash : '/' ∉ (config.outputName file kind).toList) :
    IsInside output.path ↔ IsInside file.filePath := by
  obtain ⟨last, hlast, hname⟩ := exists_last_of_mem_writtenOutputs h
  rw [hpath, getLast?_splitOn_join] at hlast
  have hinside := isInside_of_getLast? hslash hlast hname
  rw [hpath, isInside_join, and_iff_left hinside]

theorem exists_linked_of_prepare {files : FileTree} {input : String} {ast : Ast} {file : Ast.File}
    (h : config.prepare files (.input input) = .ok (ast, file)) :
    ∃ linked, config.link files input = .ok linked ∧
      file.filePath = (Go.splitPackage linked.file.goPackage).1 ∧
      file.fileName = Go.fileStem linked.file.name := by
  rw [prepare] at h
  cases hlower : config.lowerInput files input 0 with
  | error fault =>
      rw [hlower] at h
      cases h
  | ok lowered =>
      rw [hlower] at h
      cases h
      obtain ⟨linked, hlink, hlinked⟩ := exists_linked_of_lowerInput hlower
      obtain ⟨hfileName, hpackage⟩ := linked.names_of_lower hlinked
      exact ⟨linked, hlink, congrArg Prod.fst hpackage, hfileName⟩

/-- Files change only where outputs are written.  An output is written below the directory exactly
if neither the package path of its file nor, for a primary output, its name leads out of it.  So
with an extension that has no slash an input keeps inside exactly if its package option does,
whatever the input and its templates are called. -/
theorem perform_written_below_iff (config : Config) (files : FileTree) (directory : String)
    (task : Task) :
    FileTree.Evolves
        ((config.writtenOutputs files directory task).map (Run.placeIn directory files))
        files (config.perform files directory task).2 ∧
    (∀ written, (config.perform files directory task).1 = .ok written →
      written = (config.writtenOutputs files directory task).map
        fun output => join directory output.path) ∧
    ∀ output ∈ config.writtenOutputs files directory task,
      (∃ contents, (config.perform files directory task).2.read (join directory output.path) =
        .ok contents) ∧
      ∃ job ∈ task.jobs, ∃ tree ast file, config.prepare tree job = .ok (ast, file) ∧
      ∃ kind ∈ file.outputKinds, output.path = join file.filePath (config.outputName file kind) ∧
        (files.IsBelow directory output.path ↔
          IsInside file.filePath ∧
            (kind = .primary → IsInside (file.fileName ++ config.outputExtension))) ∧
        ∀ input, job = .input input → '/' ∉ config.outputExtension.toList →
          ∃ linked, config.link tree input = .ok linked ∧
            (files.IsBelow directory output.path ↔
              IsInside (Go.splitPackage linked.file.goPackage).1) := by
  refine ⟨?_, ?_, fun output houtput => ?_⟩
  · obtain ⟨done, hall, hevolves⟩ := config.writeAll_writtenOutputs files directory task
    have hboth := (Run.writeAll_evolves hall).trans hevolves
    rw [List.append_nil] at hboth
    exact hboth
  · intro written hwritten
    have hperform : config.perform files directory task =
        (.ok written, (config.perform files directory task).2) := Prod.ext hwritten rfl
    obtain ⟨done, hall, rfl, -⟩ := writeAll_of_perform hperform
    rw [writtenOutputs_of_perform hperform]
    exact Run.written_writeAll hall
  · obtain ⟨job, hjob, tree, ast, file, hprepare, kind, hkind, later, hrender⟩ :=
      exists_rendered_of_mem_jobOutputs (config.writtenOutputs_subset files directory task houtput)
    obtain ⟨hpath, htemplate⟩ := path_of_renderOutput hrender
    obtain ⟨last, hlast, hname⟩ := exists_last_of_mem_writtenOutputs houtput
    refine ⟨exists_read_of_mem_writtenOutputs houtput, job, hjob, tree, ast, file, hprepare, kind,
      hkind, hpath, ?_, ?_⟩
    · rw [files.isBelow_iff directory hlast hname]
      cases kind with
      | primary => simp [hpath, isInside_join, outputName]
      | template name =>
          rw [isInside_path_iff houtput hpath (htemplate (by simp))]
          simp
    · rintro input rfl hextension
      obtain ⟨linked, hlink, hfilePath, hfileName⟩ := exists_linked_of_prepare hprepare
      refine ⟨linked, hlink, ?_⟩
      have hslash : '/' ∉ (config.outputName file kind).toList := by
        cases kind with
        | primary =>
            rw [outputName, hfileName, String.toList_append, List.mem_append, not_or]
            exact ⟨Go.slash_not_mem_fileStem linked.file.name, hextension⟩
        | template name => exact htemplate (by simp)
      rw [files.isBelow_iff directory hlast hname, isInside_path_iff houtput hpath hslash,
        hfilePath]

def emptySchema (filePath : String) : Ast :=
  ⟨[{ id := 0, directory := "", source := "m.proto", fileName := "m", filePath,
      packageName := "up", package := "", options := [], messages := [], enums := [],
      services := [], comments := .empty, embeddedFiles := [] }]⟩

/-- An empty input is compiled below the directory; a package path can lead out of it. -/
theorem perform_written_below_iff_samples :
    (∃ output ∈ Config.default.writtenOutputs
        ⟨["work"], [(["work", "a.proto"], .file [])]⟩ "out" (.compile ["a.proto"]),
      ∃ tree linked, Config.default.link tree "a.proto" = .ok linked ∧
        (FileTree.IsBelow ⟨["work"], [(["work", "a.proto"], .file [])]⟩ "out" output.path ↔
          IsInside (Go.splitPackage linked.file.goPackage).1)) ∧
    (∃ output ∈ Config.default.writtenOutputs ⟨["work"], []⟩ "out" (.write (emptySchema "up")),
      output.path = "up/m.pb.go" ∧ FileTree.IsBelow ⟨["work"], []⟩ "out" output.path) ∧
    ∃ output ∈ Config.default.writtenOutputs ⟨["work"], []⟩ "out" (.write (emptySchema "../up")),
      output.path = "../up/m.pb.go" ∧ ¬ FileTree.IsBelow ⟨["work"], []⟩ "out" output.path := by
  have hcompiled : ∃ output ∈ Config.default.writtenOutputs
      ⟨["work"], [(["work", "a.proto"], .file [])]⟩ "out" (.compile ["a.proto"]),
      output.path = "a.pb.go" := by decide +kernel
  have hinside : ∃ output ∈ Config.default.writtenOutputs ⟨["work"], []⟩ "out"
      (.write (emptySchema "up")), output.path = "up/m.pb.go" := by decide +kernel
  have houtside : ∃ output ∈ Config.default.writtenOutputs ⟨["work"], []⟩ "out"
      (.write (emptySchema "../up")), output.path = "../up/m.pb.go" := by decide +kernel
  obtain ⟨compiled, hcompiled, -⟩ := hcompiled
  obtain ⟨inner, hinner, hinnerPath⟩ := hinside
  obtain ⟨outer, houter, houterPath⟩ := houtside
  refine ⟨⟨compiled, hcompiled, ?_⟩, ⟨inner, hinner, hinnerPath, ?_⟩, outer, houter, houterPath, ?_⟩
  · obtain ⟨-, job, hjob, tree, -, -, -, -, -, -, -, hinput⟩ :=
      (perform_written_below_iff _ _ _ _).2.2 compiled hcompiled
    exact ⟨tree, hinput "a.proto" (List.mem_singleton.mp hjob) (by decide)⟩
  · obtain ⟨-, job, hjob, tree, ast, file, hprepare, kind, -, -, hbelow, -⟩ :=
      (perform_written_below_iff _ _ _ _).2.2 inner hinner
    cases List.mem_singleton.mp hjob
    cases hprepare
    exact hbelow.mpr ⟨by decide, fun _ => by decide⟩
  · obtain ⟨-, job, hjob, tree, ast, file, hprepare, kind, -, -, hbelow, -⟩ :=
      (perform_written_below_iff _ _ _ _).2.2 outer houter
    cases List.mem_singleton.mp hjob
    cases hprepare
    exact fun h => absurd (hbelow.mp h).1 (by decide)

end Config

end SchemaGo
