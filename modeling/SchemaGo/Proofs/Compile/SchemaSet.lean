import Mathlib.Data.List.Nodup
import SchemaGo.Compile.Run
import SchemaGo.Proofs.Schema.Loading

/-!
# Schema sets

The set of several inputs takes over the files of one pool after the other, and
of files with the same name only the first.  Each pool has the imports of a file
before it, and a file that is left out leaves its name in the set; so the set has
them before it as well.
-/

namespace SchemaGo.Schema

def ImportsFirst (files : List File) : Prop :=
  ∀ (index : Nat) (file : File), files[index]? = some file → ∀ declared ∈ file.imports,
    ∃ earlier < index, ∃ other, files[earlier]? = some other ∧ other.name = declared.name

theorem importsFirst_nil : ImportsFirst [] := by
  intro index file hfile
  cases hfile

theorem ImportsFirst.of_append {first second : List File} (h : ImportsFirst (first ++ second)) :
    ImportsFirst first := by
  intro index file hfile declared hdeclared
  have hlt := (List.getElem?_eq_some_iff.mp hfile).1
  obtain ⟨earlier, hearlier, other, hother, hname⟩ :=
    h index file (by rwa [List.getElem?_append_left hlt]) declared hdeclared
  rw [List.getElem?_append_left (Nat.lt_trans hearlier hlt)] at hother
  exact ⟨earlier, hearlier, other, hother, hname⟩

theorem importsFirst_concat {files : List File} {last : File} :
    ImportsFirst (files ++ [last]) ↔
      ImportsFirst files ∧ ∀ declared ∈ last.imports, declared.name ∈ files.map (·.name) := by
  constructor
  · intro h
    refine ⟨h.of_append, fun declared hdeclared => ?_⟩
    obtain ⟨earlier, hearlier, other, hother, hname⟩ :=
      h files.length last (by simp) declared hdeclared
    rw [List.getElem?_append_left hearlier] at hother
    exact hname ▸ List.mem_map_of_mem (List.mem_of_getElem? hother)
  · rintro ⟨hfiles, hlast⟩ index file hfile declared hdeclared
    rcases Nat.lt_or_ge index files.length with hlt | hge
    · rw [List.getElem?_append_left hlt] at hfile
      obtain ⟨earlier, hearlier, other, hother, hname⟩ :=
        hfiles index file hfile declared hdeclared
      exact ⟨earlier, hearlier, other, by
        rwa [List.getElem?_append_left (Nat.lt_trans hearlier hlt)], hname⟩
    · rw [List.getElem?_append_right hge, List.getElem?_singleton] at hfile
      split at hfile
      · cases hfile
        obtain ⟨other, hother, hname⟩ := List.mem_map.mp (hlast declared hdeclared)
        obtain ⟨earlier, hget⟩ := List.getElem?_of_mem hother
        obtain ⟨hlt, -⟩ := List.getElem?_eq_some_iff.mp hget
        exact ⟨earlier, by omega, other, by rwa [List.getElem?_append_left hlt], hname⟩
      · cases hfile

/-! ## One pool -/

theorem Adds.importsFirst {source : String → FileDecl → Prop} {start next : Loaded}
    (h : Adds source start next) (hstart : ImportsFirst start.pool.files) :
    ImportsFirst next.pool.files := by
  induction h with
  | refl => exact hstart
  | add _ _ _ imports step ih =>
      obtain ⟨symbols, file, -, hfile, rfl⟩ := Loaded.add_inv step
      refine importsFirst_concat.mpr ⟨ih, fun declared hdeclared => ?_⟩
      rw [(imports_of_linkFile hfile).2] at hdeclared
      obtain ⟨i, hi, rfl⟩ := List.mem_map.mp hdeclared
      exact List.mem_map.mpr (imports i hi)

theorem importsFirst_of_link {files : FileTree} {includeDirectory path : String} {linked : Linked}
    (h : link files includeDirectory path = .ok linked) : ImportsFirst linked.pool.files := by
  obtain ⟨loaded, hadds, hpool, -⟩ := adds_of_link h
  rw [hpool]
  exact hadds.importsFirst importsFirst_nil

/-! ## Taking over a pool -/

structure Arranged (set : List File) : Prop where
  distinct : (set.map (·.name)).Nodup
  importsFirst : ImportsFirst set

theorem Arranged.concat {set : List File} (h : Arranged set) {file : File}
    (hname : file.name ∉ set.map (·.name))
    (himports : ∀ declared ∈ file.imports, declared.name ∈ set.map (·.name)) :
    Arranged (set ++ [file]) := by
  constructor
  · rw [List.map_append, List.map_singleton]
    exact List.nodup_append.mpr ⟨h.distinct, List.nodup_singleton _, fun other hother last hlast =>
      fun heq => hname (List.mem_singleton.mp hlast ▸ heq ▸ hother)⟩
  · exact importsFirst_concat.mpr ⟨h.importsFirst, himports⟩

theorem any_name_iff {set : List File} {file : File} :
    (set.any fun other => other.name == file.name) = true ↔ file.name ∈ set.map (·.name) := by
  simp [List.any_eq_true]

theorem mem_names_addFiles (set pool : List File) (name : String) :
    name ∈ (addFiles set pool).map (·.name) ↔
      name ∈ set.map (·.name) ∨ name ∈ pool.map (·.name) := by
  induction pool generalizing set with
  | nil => simp [addFiles]
  | cons file rest ih =>
      rw [addFiles]
      split
      · rename_i hthere
        rw [ih, List.map_cons, List.mem_cons]
        refine ⟨by tauto, ?_⟩
        rintro (hset | rfl | hrest)
        · exact .inl hset
        · exact .inl (any_name_iff.mp hthere)
        · exact .inr hrest
      · rw [ih, List.map_append, List.map_singleton, List.map_cons, List.mem_append,
          List.mem_singleton, List.mem_cons, or_assoc]

theorem mem_of_mem_addFiles {set pool : List File} {file : File} (h : file ∈ addFiles set pool) :
    file ∈ set ∨ file ∈ pool := by
  induction pool generalizing set with
  | nil => exact .inl h
  | cons first rest ih =>
      rw [addFiles] at h
      split at h
      · exact (ih h).imp_right (List.mem_cons_of_mem first)
      · rcases ih h with hset | hrest
        · rcases List.mem_append.mp hset with hset | hlast
          · exact .inl hset
          · exact .inr (List.mem_singleton.mp hlast ▸ List.mem_cons_self)
        · exact .inr (List.mem_cons_of_mem first hrest)

/-- The files of the pool that have been looked at, `done`, have left their names in the set, so the
imports of the next one are there. -/
theorem Arranged.addFiles {set done rest : List File} (h : Arranged set)
    (hpool : ImportsFirst (done ++ rest))
    (hdone : ∀ file ∈ done, file.name ∈ set.map (·.name)) : Arranged (addFiles set rest) := by
  induction rest generalizing set done with
  | nil => exact h
  | cons file rest ih =>
      rw [List.append_cons] at hpool
      have hearlier := (importsFirst_concat.mp hpool.of_append).2
      rw [Schema.addFiles]
      split
      · rename_i hthere
        refine ih h hpool fun other hother => ?_
        rcases List.mem_append.mp hother with hother | hother
        · exact hdone other hother
        · rw [List.mem_singleton.mp hother]
          exact any_name_iff.mp hthere
      · rename_i hmissing
        have himports : ∀ declared ∈ file.imports, declared.name ∈ set.map (·.name) := by
          intro declared hdeclared
          obtain ⟨other, hother, hname⟩ :=
            List.mem_map.mp (hearlier declared hdeclared)
          exact hname ▸ hdone other hother
        have hnew : file.name ∉ set.map (·.name) := fun hthere =>
          hmissing (any_name_iff.mpr hthere)
        refine ih (h.concat hnew himports) hpool fun other hother => ?_
        rw [List.map_append, List.mem_append]
        rcases List.mem_append.mp hother with hother | hother
        · exact .inl (hdone other hother)
        · exact .inr (by simp [List.mem_singleton.mp hother])

end SchemaGo.Schema

namespace SchemaGo.Config

open Schema (File Linked Arranged ImportsFirst)

theorem link_eq_ok_iff {config : Config} {files : FileTree} {input : String} {linked : Linked} :
    config.link files input = .ok linked ↔
      Schema.link files config.includeDirectory input = .ok linked := by
  rw [link]
  cases Schema.link files config.includeDirectory input <;> simp

theorem exists_linked {config : Config} {files : FileTree} {input : String}
    (h : (config.link files input).isOk) : ∃ linked, config.link files input = .ok linked :=
  exists_eq_ok_of_isOk h

def InPools (config : Config) (files : FileTree) (inputs : List String) (file : File) : Prop :=
  ∃ input ∈ inputs, ∃ linked, config.link files input = .ok linked ∧ file ∈ linked.pool.files

theorem inPools_cons {config : Config} {files : FileTree} {input : String} {linked : Linked}
    (hlinked : config.link files input = .ok linked) (rest : List String) (file : File) :
    config.InPools files (input :: rest) file ↔
      file ∈ linked.pool.files ∨ config.InPools files rest file := by
  constructor
  · rintro ⟨other, hother, otherLinked, hlink, hfile⟩
    rcases List.mem_cons.mp hother with rfl | hother
    · rw [hlinked] at hlink
      cases hlink
      exact .inl hfile
    · exact .inr ⟨other, hother, otherLinked, hlink, hfile⟩
  · rintro (hfile | ⟨other, hother, otherLinked, hlink, hfile⟩)
    · exact ⟨input, List.mem_cons_self, linked, hlinked, hfile⟩
    · exact ⟨other, List.mem_cons_of_mem _ hother, otherLinked, hlink, hfile⟩

theorem schemaSetFrom_arranged {config : Config} {files : FileTree} {inputs : List String}
    (hlink : ∀ input ∈ inputs, ∃ linked, config.link files input = .ok linked) {set : List File}
    (hset : Arranged set) :
    ∃ result, config.schemaSetFrom files set inputs = .ok result ∧ Arranged result ∧
      (∀ file ∈ result, file ∈ set ∨ config.InPools files inputs file) ∧
      ∀ file, file ∈ set ∨ config.InPools files inputs file →
        file.name ∈ result.map (·.name) := by
  induction inputs generalizing set with
  | nil =>
      refine ⟨set, rfl, hset, fun file hfile => .inl hfile, ?_⟩
      rintro file (hfile | ⟨input, hinput, -⟩)
      · exact List.mem_map_of_mem hfile
      · cases hinput
  | cons input rest ih =>
      obtain ⟨linked, hlinked⟩ := hlink input List.mem_cons_self
      have hpool := Schema.importsFirst_of_link (link_eq_ok_iff.mp hlinked)
      have hgrown : Arranged (Schema.addFiles set linked.pool.files) :=
        hset.addFiles (show ImportsFirst ([] ++ linked.pool.files) from hpool) (by simp)
      obtain ⟨result, hresult, harranged, honly, hnames⟩ :=
        ih (fun other hother => hlink other (List.mem_cons_of_mem _ hother)) hgrown
      refine ⟨result, by rw [schemaSetFrom, hlinked]; exact hresult, harranged, ?_, ?_⟩
      · intro file hfile
        rw [inPools_cons hlinked]
        rcases honly file hfile with hfile | hfile
        · exact (Schema.mem_of_mem_addFiles hfile).imp_right .inl
        · exact .inr (.inr hfile)
      · intro file hfile
        rw [inPools_cons hlinked, ← or_assoc] at hfile
        rcases hfile with hfile | hfile
        · have hname := (Schema.mem_names_addFiles set linked.pool.files file.name).mpr
            (hfile.imp (fun h => List.mem_map_of_mem h) (fun h => List.mem_map_of_mem h))
          obtain ⟨kept, hkept, heq⟩ := List.mem_map.mp hname
          exact heq ▸ hnames kept (.inl hkept)
        · exact hnames file (.inr hfile)

/-- The set of inputs that can all be linked is there, its files come from their pools and have
different names, a file of every name in the pools is among them, and whatever a file imports has an
earlier position. -/
theorem schemaSet_closed (config : Config) (files : FileTree) (inputs : List String)
    (hlink : ∀ input ∈ inputs, ∃ linked, config.link files input = .ok linked) :
    ∃ set, config.schemaSet files inputs = .ok set ∧
      (∀ file ∈ set, config.InPools files inputs file) ∧
      (set.map (·.name)).Nodup ∧
      (∀ file, config.InPools files inputs file → ∃ kept ∈ set, kept.name = file.name) ∧
      ∀ (index : Nat) (file : File), set[index]? = some file → ∀ declared ∈ file.imports,
        ∃ earlier < index, ∃ other, set[earlier]? = some other ∧ other.name = declared.name := by
  have hempty : Arranged [] := ⟨List.nodup_nil, Schema.importsFirst_nil⟩
  obtain ⟨set, hset, harranged, honly, hnames⟩ := schemaSetFrom_arranged hlink hempty
  refine ⟨set, hset, fun file hfile => ?_, harranged.distinct, fun file hfile => ?_,
    harranged.importsFirst⟩
  · exact (honly file hfile).resolve_left List.not_mem_nil
  · exact List.mem_map.mp (hnames file (.inr hfile))

def overlappingPools : FileTree :=
  ⟨["work"], [(["work", "one"], .directory), (["work", "two"], .directory),
    (["work", "one", "a.proto"], .file (Text.Utf8.encode "import \"c.proto\";")),
    (["work", "one", "c.proto"], .file (Text.Utf8.encode "import \"d.proto\";")),
    (["work", "one", "d.proto"], .file []),
    (["work", "two", "b.proto"], .file (Text.Utf8.encode "import \"c.proto\";")),
    (["work", "two", "c.proto"], .file [])]⟩

theorem schemaSet_closed_overlapping :
    ∃ set, Config.default.schemaSet overlappingPools ["two/b.proto", "one/a.proto"] = .ok set ∧
      set.map (·.name) = ["c.proto", "b.proto", "d.proto", "a.proto"] ∧
      (set.map (·.name)).Nodup ∧
      ∀ (index : Nat) (file : File), set[index]? = some file → ∀ declared ∈ file.imports,
        ∃ earlier < index, ∃ other, set[earlier]? = some other ∧ other.name = declared.name := by
  have hlink : ∀ input ∈ ["two/b.proto", "one/a.proto"],
      ∃ linked, Config.default.link overlappingPools input = .ok linked := by
    have hok : ∀ input ∈ ["two/b.proto", "one/a.proto"],
        (Config.default.link overlappingPools input).isOk := by decide +kernel
    exact fun input hinput => exists_linked (hok input hinput)
  obtain ⟨set, hset, -, hdistinct, -, hfirst⟩ :=
    schemaSet_closed Config.default overlappingPools ["two/b.proto", "one/a.proto"] hlink
  refine ⟨set, hset, ?_, hdistinct, hfirst⟩
  have hnames : (Config.default.schemaSet overlappingPools
    ["two/b.proto", "one/a.proto"]).toOption.map (·.map (·.name)) =
      some ["c.proto", "b.proto", "d.proto", "a.proto"] := by decide +kernel
  simpa [hset, Except.toOption] using hnames

end SchemaGo.Config
