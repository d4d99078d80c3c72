import SchemaGo.Proofs.Compile.Pipelines
import SchemaGo.Proofs.FirstByKey
import SchemaGo.Proofs.Lower.FirstFault

/-!
# The files that a schema depends on

A schema depends on its sources and on the files embedded in them.  The sources come
first, and of several spellings of one path only the first is listed.  Nothing is
missing: every file whose bytes stand for a scalar in the options of a parsed schema
is on the list.
-/

namespace SchemaGo

/-! ## The list -/

theorem PathText.samePath_iff (left right : String) :
    samePath left right ↔ components left = components right := beq_iff_eq

namespace Ast

def sources (ast : Ast) : List String :=
  ast.files.map fun file => PathText.join file.directory file.source

def embedded (ast : Ast) : List String := ast.files.flatMap (·.embeddedFiles)

def IsSource (ast : Ast) (path : String) : Prop :=
  ∃ source ∈ ast.sources, PathText.samePath source path

theorem distinctPaths_eq_keepNew (seen paths : List String) :
    distinctPaths seen paths =
      keepNew PathText.components (seen.map PathText.components) paths := by
  induction paths generalizing seen with
  | nil => rfl
  | cons path rest ih =>
      have hseen : (seen.any fun earlier => PathText.samePath earlier path) ↔
          PathText.components path ∈ seen.map PathText.components := by
        simp [PathText.samePath_iff]
      rw [distinctPaths, keepNew, ih, ih]
      split
      · rename_i hold
        rw [if_pos (hseen.mp hold)]
      · rename_i hnew
        rw [if_neg (mt hseen.mpr hnew), List.map_cons]

theorem dependencies_eq_firstByKey (ast : Ast) :
    ast.dependencies = firstByKey PathText.components (ast.sources ++ ast.embedded) := by
  rw [← keepNew_nil_eq_firstByKey]
  exact distinctPaths_eq_keepNew [] _

theorem isSource_iff (ast : Ast) (path : String) :
    ast.IsSource path ↔ PathText.components path ∈ ast.sources.map PathText.components := by
  simp only [IsSource, PathText.samePath_iff, List.mem_map]

theorem pairwise_dependencies (ast : Ast) :
    ast.dependencies.Pairwise fun path later => ¬ PathText.samePath path later := by
  have hnodup := nodup_map_firstByKey PathText.components (ast.sources ++ ast.embedded)
  rw [← dependencies_eq_firstByKey, List.nodup_iff_pairwise_ne, List.pairwise_map] at hnodup
  exact hnodup.imp fun hne hsame => hne ((PathText.samePath_iff _ _).mp hsame)

theorem exists_dependency (ast : Ast) {path : String} (h : path ∈ ast.sources ++ ast.embedded) :
    ∃ listed ∈ ast.dependencies, PathText.samePath path listed := by
  have hkey := (mem_map_firstByKey PathText.components _ _).mpr
    (List.mem_map_of_mem (f := PathText.components) h)
  rw [← dependencies_eq_firstByKey, List.mem_map] at hkey
  obtain ⟨listed, hlisted, hsame⟩ := hkey
  exact ⟨listed, hlisted, (PathText.samePath_iff _ _).mpr hsame.symm⟩

theorem sources_first (ast : Ast) :
    ast.dependencies.Pairwise fun path later => ast.IsSource later → ast.IsSource path := by
  simp only [dependencies_eq_firstByKey, isSource_iff]
  exact pairwise_firstByKey_append _ _ _

end Ast

/-! ## Substituted files -/

namespace Schema.Linked

variable {linked : Linked} {files : FileTree} {id : Ast.FileId} {lowered : Ast.File}

/-- The options of the lowered file are those of the schema file, with the scalars replaced
according to their addresses; those of services are looked at before services are made normal. -/
def Substitutes (linked : Linked) (scope : EmbedScope) (lowered : Ast.File) : Prop :=
  ∃ services : List Ast.Service, lowered.services = services.map normalizeService ∧
    List.Forall₂ (fun lookup found => Table.KeepsLast
        (scope.extensionEntries (lookup.2.optionsPath lookup.1) (customOptions lookup.2.options))
        found)
      linked.file.lookups (lowered.optionMaps services)

theorem substitutes_of_lower (h : linked.lower files id = .ok lowered) :
    linked.Substitutes (linked.context files id).scope lowered := by
  have hparts := linked.lowersParts_of_lower h
  obtain ⟨services, hnormal, hservices⟩ := exists_raw_services hparts.services
  refine ⟨services, hnormal, (finds_file hparts hservices).imp fun lookup found hfinds => ?_⟩
  obtain ⟨embedded, embedded', hfinds⟩ := hfinds
  exact EmbedScope.keepsLast_of_unwrapOptions hfinds

theorem exists_contents_of_lower (h : linked.lower files id = .ok lowered)
    {lookup : SourcePath × Element} (hlookup : lookup ∈ linked.file.lookups)
    {address : SourcePath}
    (haddress : address ∈ optionAddresses (lookup.2.optionsPath lookup.1) lookup.2.options)
    {name : String} (hname : (linked.context files id).scope.embedFile? address = some name) :
    ∃ contents, files.read name = .ok contents ∧ ∀ scalar,
      (linked.context files id).scope.scalarAt address scalar =
        .literal (byteLiteral contents) := by
  have hfaults := (linked.stops_lower files id).ok_iff.mp ⟨lowered, h⟩
  obtain ⟨contents, hread⟩ := ((linked.file.faults_eq_nil_iff _).mp hfaults).2 lookup hlookup
    address haddress name hname
  refine ⟨contents, hread, fun scalar => ?_⟩
  rw [EmbedScope.scalarAt, hname, Option.map_some, hread]

theorem mem_embeddedFiles_of_lower (h : linked.lower files id = .ok lowered)
    {lookup : SourcePath × Element} (hlookup : lookup ∈ linked.file.lookups)
    {address : SourcePath}
    (haddress : address ∈ optionAddresses (lookup.2.optionsPath lookup.1) lookup.2.options)
    {name : String} (hname : (linked.context files id).scope.embedFile? address = some name) :
    name ∈ lowered.embeddedFiles := by
  rw [embeddedFiles_of_lower h, File.files_steps, List.mem_flatMap]
  exact ⟨lookup, hlookup, List.mem_filterMap.mpr ⟨address, haddress, hname⟩⟩

end Schema.Linked

/-- Of the sources of a schema followed by the files embedded in them the first of each path is
listed, so no path is listed twice, every one of them is, and the sources come before what is only
embedded.  The options of a parsed schema are those of its inputs with scalars replaced according
to their addresses, and the file that stands for a scalar at any address has been read and is on the
list. -/
theorem Ast.dependencies_complete (ast : Ast) :
    ast.dependencies = firstByKey PathText.components (ast.sources ++ ast.embedded) ∧
    ast.dependencies.Pairwise (fun path later => ¬ PathText.samePath path later) ∧
    (∀ path ∈ ast.sources ++ ast.embedded,
      ∃ listed ∈ ast.dependencies, PathText.samePath path listed) ∧
    ast.dependencies.Pairwise (fun path later => ast.IsSource later → ast.IsSource path) ∧
    ∀ (config : Config) (files : FileTree) (inputs : List String) (diagnostics : Diagnostics),
      config.parse files inputs = .ok (ast, diagnostics) →
      List.Forall₂ (fun input lowered => ∃ linked, config.link files input = .ok linked ∧
        linked.Substitutes (linked.context files lowered.id).scope lowered ∧
        ∀ lookup ∈ linked.file.lookups,
          ∀ address ∈ optionAddresses (lookup.2.optionsPath lookup.1) lookup.2.options, ∀ name,
            (linked.context files lowered.id).scope.embedFile? address = some name →
              (∃ contents, files.read name = .ok contents ∧ ∀ scalar,
                (linked.context files lowered.id).scope.scalarAt address scalar =
                  .literal (byteLiteral contents)) ∧
              ∃ listed ∈ ast.dependencies, PathText.samePath name listed)
        inputs ast.files := by
  refine ⟨ast.dependencies_eq_firstByKey, ast.pairwise_dependencies,
    fun _ => ast.exists_dependency, ast.sources_first, ?_⟩
  intro config files inputs diagnostics hparse
  obtain ⟨added, hfiles, hadded⟩ := Config.parseFrom_inv hparse
  obtain rfl : ast.files = added := hfiles
  have hmem := (List.forall₂_and_left (p := (· ∈ ast.files)) _ _).mpr ⟨fun _ h => h, hadded.flip⟩
  refine hmem.flip.imp fun input lowered hfile => ?_
  obtain ⟨hlisted, id, own, hlower⟩ := hfile
  obtain ⟨linked, hlink, hlower⟩ := Config.exists_linked_of_lowerInput hlower
  have hscope : (linked.context files lowered.id).scope = (linked.context files id).scope := rfl
  refine ⟨linked, hlink, ?_⟩
  rw [hscope]
  refine ⟨Schema.Linked.substitutes_of_lower hlower, ?_⟩
  intro lookup hlookup address haddress name hname
  refine ⟨Schema.Linked.exists_contents_of_lower hlower hlookup haddress hname, ?_⟩
  have hembedded := Schema.Linked.mem_embeddedFiles_of_lower hlower hlookup haddress hname
  exact ast.exists_dependency
    (List.mem_append_right _ (List.mem_flatMap.mpr ⟨lowered, hlisted, hembedded⟩))

def embeddingTree : FileTree where
  workingDirectory := ["w"]
  entries := [
    (["w", "a"], .file (Text.Utf8.encode ("import \"google/protobuf/descriptor.proto\";\n" ++
      "extend google.protobuf.FileOptions \x7b\n" ++
      "optional string m = 5;\noptional string n = 6;\n\x7d\n" ++
      "// @embed d/b\noption (m) = \"\";\n// @embed d/./b\noption (n) = \"\";\n"))),
    (["w", "google"], .directory), (["w", "google", "protobuf"], .directory),
    (["w", "google", "protobuf", "descriptor.proto"], .file (Text.Utf8.encode
      "package google.protobuf; message FileOptions \x7b extensions 5 to 6; \x7d")),
    (["w", "d"], .directory), (["w", "d", "b"], .file [42])]

/-- The second spelling is not listed, and what it leads to is. -/
theorem Ast.dependencies_complete_embedding :
    ∃ ast diagnostics linked, Config.default.parse embeddingTree ["a"] = .ok (ast, diagnostics) ∧
      Config.default.link embeddingTree "a" = .ok linked ∧
      ast.sources ++ ast.embedded = ["a", "d/b", "d/./b"] ∧ ast.dependencies = ["a", "d/b"] ∧
      ∃ lookup ∈ linked.file.lookups,
        ∃ address ∈ optionAddresses (lookup.2.optionsPath lookup.1) lookup.2.options,
          (linked.context embeddingTree 0).scope.embedFile? address = some "d/./b" ∧
          (∃ contents, embeddingTree.read "d/./b" = .ok contents ∧ ∀ scalar,
            (linked.context embeddingTree 0).scope.scalarAt address scalar =
              .literal (byteLiteral contents)) ∧
          ∃ listed ∈ ast.dependencies, PathText.samePath "d/./b" listed := by
  have hpaths : (Config.default.lowerInput embeddingTree "a" 0).toOption.map
      (fun run => (run.1.embeddedFiles, Ast.sources ⟨[run.1]⟩, Ast.dependencies ⟨[run.1]⟩)) =
        some (["d/b", "d/./b"], ["a"], ["a", "d/b"]) := by
    decide +kernel
  obtain ⟨⟨lowered, found⟩, hlower, hseen⟩ := exists_eq_ok_of_map hpaths
  obtain ⟨(hembedded : lowered.embeddedFiles = _), hseen⟩ := Prod.mk.inj hseen
  obtain ⟨hsources, hdependencies⟩ := Prod.mk.inj hseen
  obtain ⟨linked, hlink, hlinked⟩ := Config.exists_linked_of_lowerInput hlower
  have hparse : Config.default.parse embeddingTree ["a"] =
      .ok (⟨[lowered]⟩, Diagnostics.empty.merge found) := by
    rw [Config.parse_singleton, hlower]
    rfl
  have hall : Ast.sources ⟨[lowered]⟩ ++ Ast.embedded ⟨[lowered]⟩ = ["a", "d/b", "d/./b"] := by
    rw [hsources, embedded, List.flatMap_singleton, hembedded]
    rfl
  have hsecond : "d/./b" ∈ lowered.embeddedFiles := by simp [hembedded]
  rw [Schema.Linked.embeddedFiles_of_lower hlinked, Schema.File.files_steps,
    List.mem_flatMap] at hsecond
  obtain ⟨lookup, hlookup, hasked⟩ := hsecond
  obtain ⟨address, haddress, hname⟩ := List.mem_filterMap.mp hasked
  refine ⟨_, _, linked, hparse, hlink, hall, hdependencies, lookup, hlookup, address,
    haddress, hname, ?_⟩
  cases (Ast.dependencies_complete ⟨[lowered]⟩).2.2.2.2 _ _ _ _ hparse with
  | cons hfirst _ =>
      obtain ⟨linked', hlink', -, hlisted⟩ := hfirst
      obtain rfl : linked = linked' := Except.ok.inj (hlink.symm.trans hlink')
      exact hlisted lookup hlookup address haddress "d/./b" hname

end SchemaGo
