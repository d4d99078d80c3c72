import SchemaGo.Proofs.Compile.Pipelines
import SchemaGo.Proofs.Table

/-!
# Diagnostics in any order

Merging diagnostics is a union: of the files without a syntax statement and, file by
file, of the imports that nothing uses.  Everything merged is kept in ascending order,
so diagnostics that warn of the same are equal.  What a schema is warned of is then a
matter of which inputs it consists of, and not of their order or number.
-/

namespace SchemaGo

namespace Diagnostics

/-! ## Tables of sets -/

structure SetsSorted (table : Table TextSet) : Prop where
  files : Table.IsSorted table
  imports : ∀ entry ∈ table, TextSet.IsSorted entry.2

def Lists (table : Table TextSet) (file name : String) : Prop :=
  ∃ imports, (file, imports) ∈ table ∧ name ∈ imports

theorem lists_iff_mem {table : Table TextSet} (h : Table.IsSorted table) {file : String}
    {imports : TextSet} (hentry : (file, imports) ∈ table) (name : String) :
    Lists table file name ↔ name ∈ imports := by
  constructor
  · rintro ⟨others, hothers, hname⟩
    have hsame := (Table.get?_of_mem h hentry).symm.trans (Table.get?_of_mem h hothers)
    rwa [Option.some.inj hsame]
  · exact fun hname => ⟨imports, hentry, hname⟩

theorem lists_iff_get? {table : Table TextSet} (h : Table.IsSorted table) (file name : String) :
    Lists table file name ↔ name ∈ (Table.get? table file).getD [] := by
  cases hget : Table.get? table file with
  | some imports => exact lists_iff_mem h (Table.mem_of_get? hget) name
  | none =>
      refine iff_of_false ?_ List.not_mem_nil
      rintro ⟨imports, hentry, -⟩
      rw [Table.get?_of_mem h hentry] at hget
      cases hget

theorem lists_cons (file other name : String) (imports : TextSet) (table : Table TextSet) :
    Lists ((other, imports) :: table) file name ↔
      (file = other ∧ name ∈ imports) ∨ Lists table file name := by
  simp only [Lists, List.mem_cons, Prod.mk.injEq, or_and_right, exists_or, and_assoc,
    exists_and_left, exists_eq_left]

theorem setsSorted_subset {left right : Table TextSet} (hleft : SetsSorted left)
    (hright : SetsSorted right) (hkeys : ∀ file, file ∈ Table.keys left ↔ file ∈ Table.keys right)
    (hlists : ∀ file name, Lists left file name ↔ Lists right file name) : left ⊆ right := by
  rintro ⟨file, imports⟩ hentry
  obtain ⟨⟨_, others⟩, hother, rfl⟩ :=
    List.mem_map.mp ((hkeys file).mp (List.mem_map_of_mem hentry))
  have hsame : imports = others := by
    refine TextSet.eq_of_mem_iff (hleft.imports _ hentry) (hright.imports _ hother) fun name => ?_
    rw [← lists_iff_mem hleft.files hentry, hlists, lists_iff_mem hright.files hother]
  rwa [hsame]

/-! ## Adding files -/

theorem setsSorted_addUnused {table : Table TextSet} (h : SetsSorted table) (file : String)
    (imports : TextSet) : SetsSorted (addUnused table file imports) := by
  have hfiles : Table.IsSorted (addUnused table file imports) :=
    Table.isSorted_insert _ _ h.files
  refine ⟨hfiles, ?_⟩
  rintro ⟨other, others⟩ hentry
  have hget := Table.get?_of_mem hfiles hentry
  rw [addUnused, Table.get?_insert] at hget
  split at hget
  · cases hget
    apply TextSet.isSorted_union
    cases hold : Table.get? table file with
    | none => exact List.Pairwise.nil
    | some old => exact h.imports _ (Table.mem_of_get? hold)
  · exact h.imports _ (Table.mem_of_get? hget)

theorem lists_addUnused {table : Table TextSet} (h : Table.IsSorted table) (file : String)
    (imports : TextSet) (other name : String) :
    Lists (addUnused table file imports) other name ↔
      Lists table other name ∨ (other = file ∧ name ∈ imports) := by
  have hfiles : Table.IsSorted (addUnused table file imports) := Table.isSorted_insert _ _ h
  rw [lists_iff_get? hfiles, lists_iff_get? h, addUnused, Table.get?_insert]
  by_cases hother : other = file
  · simp [hother]
  · simp [hother]

def addAll (left right : Table TextSet) : Table TextSet :=
  right.foldl (fun table (file, imports) => addUnused table file imports) left

theorem addAll_cons (left : Table TextSet) (file : String) (imports : TextSet)
    (right : Table TextSet) :
    addAll left ((file, imports) :: right) = addAll (addUnused left file imports) right := rfl

theorem setsSorted_addAll {left : Table TextSet} (h : SetsSorted left) (right : Table TextSet) :
    SetsSorted (addAll left right) := by
  induction right generalizing left with
  | nil => exact h
  | cons entry right ih => exact ih (setsSorted_addUnused h entry.1 entry.2)

theorem mem_keys_addAll (left right : Table TextSet) (file : String) :
    file ∈ Table.keys (addAll left right) ↔ file ∈ Table.keys left ∨ file ∈ Table.keys right := by
  induction right generalizing left with
  | nil => simp [addAll, Table.keys]
  | cons entry right ih =>
      have hkeys : Table.keys (entry :: right) = entry.1 :: Table.keys right := rfl
      rw [addAll_cons, ih, addUnused, Table.mem_keys_insert, hkeys, List.mem_cons, or_assoc,
        or_left_comm]

theorem lists_addAll {left : Table TextSet} (h : SetsSorted left) (right : Table TextSet)
    (file name : String) :
    Lists (addAll left right) file name ↔ Lists left file name ∨ Lists right file name := by
  induction right generalizing left with
  | nil => simp [addAll, Lists]
  | cons entry right ih =>
      rw [addAll_cons, ih (setsSorted_addUnused h entry.1 entry.2), lists_addUnused h.files,
        lists_cons, or_assoc]

/-! ## Warnings -/

/-- What diagnostics say of a file: that it has no syntax statement, that it is listed with imports
that nothing uses, even if with none, and which imports these are. -/
inductive Warning where
  | missingDialect (file : String)
  | listed (file : String)
  | unusedImport (file name : String)
deriving DecidableEq, Repr

def Warns (diagnostics : Diagnostics) : Warning → Prop
  | .missingDialect file => file ∈ diagnostics.missingDialect
  | .listed file => file ∈ Table.keys diagnostics.unusedImports
  | .unusedImport file name => Lists diagnostics.unusedImports file name

structure IsSorted (diagnostics : Diagnostics) : Prop where
  missing : TextSet.IsSorted diagnostics.missingDialect
  unused : SetsSorted diagnostics.unusedImports

theorem isSorted_empty : empty.IsSorted :=
  ⟨List.Pairwise.nil, List.Pairwise.nil, by simp [empty]⟩

theorem not_warns_empty (warning : Warning) : ¬empty.Warns warning := by
  cases warning <;> simp [Warns, empty, Table.keys, Lists]

theorem eq_of_warns_iff {left right : Diagnostics} (hleft : left.IsSorted) (hright : right.IsSorted)
    (h : ∀ warning, left.Warns warning ↔ right.Warns warning) : left = right := by
  have hkeys := fun file => h (.listed file)
  have hlists := fun file name => h (.unusedImport file name)
  have hmissing : left.missingDialect = right.missingDialect :=
    TextSet.eq_of_mem_iff hleft.missing hright.missing fun file => h (.missingDialect file)
  have hunused : left.unusedImports = right.unusedImports :=
    Table.eq_of_mem_iff hleft.unused.files hright.unused.files fun entry =>
      ⟨fun hentry => setsSorted_subset hleft.unused hright.unused hkeys hlists hentry,
        fun hentry => setsSorted_subset hright.unused hleft.unused (fun file => (hkeys file).symm)
          (fun file name => (hlists file name).symm) hentry⟩
  cases left
  cases right
  simp_all

/-! ## Merging -/

theorem isSorted_merge {left : Diagnostics} (h : left.IsSorted) (right : Diagnostics) :
    (left.merge right).IsSorted :=
  ⟨TextSet.isSorted_union right.missingDialect h.missing,
    setsSorted_addAll h.unused right.unusedImports⟩

theorem warns_merge {left : Diagnostics} (h : left.IsSorted) (right : Diagnostics)
    (warning : Warning) :
    (left.merge right).Warns warning ↔ left.Warns warning ∨ right.Warns warning := by
  cases warning with
  | missingDialect file => exact TextSet.mem_union _ _ file
  | listed file => exact mem_keys_addAll _ _ file
  | unusedImport file name => exact lists_addAll h.unused _ file name

theorem isSorted_foldl_merge {start : Diagnostics} (h : start.IsSorted)
    (list : List Diagnostics) : (list.foldl merge start).IsSorted := by
  induction list generalizing start with
  | nil => exact h
  | cons first rest ih => exact ih (isSorted_merge h first)

theorem warns_foldl_merge {start : Diagnostics} (h : start.IsSorted) (list : List Diagnostics)
    (warning : Warning) :
    (list.foldl merge start).Warns warning ↔
      start.Warns warning ∨ ∃ diagnostics ∈ list, diagnostics.Warns warning := by
  induction list generalizing start with
  | nil => simp
  | cons first rest ih =>
      rw [List.foldl_cons, ih (isSorted_merge h first), warns_merge h, or_assoc,
        List.exists_mem_cons_iff]

def mergeAll (list : List Diagnostics) : Diagnostics := list.foldl merge empty

theorem isSorted_mergeAll (list : List Diagnostics) : (mergeAll list).IsSorted :=
  isSorted_foldl_merge isSorted_empty list

theorem warns_mergeAll (list : List Diagnostics) (warning : Warning) :
    (mergeAll list).Warns warning ↔ ∃ diagnostics ∈ list, diagnostics.Warns warning := by
  rw [mergeAll, warns_foldl_merge isSorted_empty]
  exact or_iff_right (not_warns_empty warning)

theorem mergeAll_congr {list other : List Diagnostics}
    (h : ∀ diagnostics, diagnostics ∈ list ↔ diagnostics ∈ other) :
    mergeAll list = mergeAll other := by
  refine eq_of_warns_iff (isSorted_mergeAll list) (isSorted_mergeAll other) fun warning => ?_
  simp only [warns_mergeAll, h]

end Diagnostics

/-! ## Parsing -/

namespace Config

variable {config : Config} {files : FileTree}

def diagnosticsOf (config : Config) (files : FileTree) (input : String) :
    Except CompileFault Diagnostics :=
  (config.lowerInput files input 0).map (·.2)

theorem diagnosticsOf_eq (config : Config) (files : FileTree) (input : String) (id : Ast.FileId) :
    config.diagnosticsOf files input = (config.lowerInput files input id).map (·.2) := by
  rw [diagnosticsOf, config.lowerInput_atPosition files input id 0]
  cases config.lowerInput files input id <;> rfl

theorem map_snd_parseFrom (config : Config) (files : FileTree) (ast : Ast) (found : Diagnostics)
    (inputs : List String) :
    (config.parseFrom files ast found inputs).map (·.2) =
      (inputs.mapM (config.diagnosticsOf files)).map fun all => all.foldl .merge found := by
  induction inputs generalizing ast found with
  | nil => rfl
  | cons input rest ih =>
      rw [parseFrom, List.mapM_cons, config.diagnosticsOf_eq files input ast.nextId]
      cases config.lowerInput files input ast.nextId with
      | error fault => rfl
      | ok lowered =>
          refine (ih _ _).trans ?_
          cases rest.mapM (config.diagnosticsOf files) <;> rfl

theorem exists_parse_iff {inputs : List String} {diagnostics : Diagnostics} :
    (∃ ast, config.parse files inputs = .ok (ast, diagnostics)) ↔
      ∃ all, inputs.mapM (config.diagnosticsOf files) = .ok all ∧
        Diagnostics.mergeAll all = diagnostics := by
  have hmap : (config.parse files inputs).map (·.2) =
      (inputs.mapM (config.diagnosticsOf files)).map Diagnostics.mergeAll :=
    config.map_snd_parseFrom files .empty .empty inputs
  rw [← map_eq_ok_iff, ← hmap, map_eq_ok_iff]
  constructor
  · rintro ⟨ast, hparse⟩
    exact ⟨_, hparse, rfl⟩
  · rintro ⟨⟨ast, _⟩, hparse, rfl⟩
    exact ⟨ast, hparse⟩

theorem exists_parse_congr {inputs others : List String} {diagnostics : Diagnostics}
    (h : ∃ ast, config.parse files inputs = .ok (ast, diagnostics))
    (hsame : ∀ input, input ∈ others ↔ input ∈ inputs) :
    ∃ ast, config.parse files others = .ok (ast, diagnostics) := by
  obtain ⟨all, hall, rfl⟩ := exists_parse_iff.mp h
  have hown : ∀ input ∈ others, ∃ own, config.diagnosticsOf files input = .ok own := by
    intro input hinput
    obtain ⟨own, -, hown⟩ :=
      exists_of_mem_right (forall₂_of_mapM hall).flip ((hsame input).mp hinput)
    exact ⟨own, hown⟩
  obtain ⟨all', hall'⟩ := exists_mapM_eq_ok hown
  refine exists_parse_iff.mpr ⟨all', hall', Diagnostics.mergeAll_congr fun own => ?_⟩
  rw [mem_iff_of_mapM hall', mem_iff_of_mapM hall]
  simp only [hsame]

/-- Merging diagnostics collects their warnings, whatever their order and however often each of them
occurs.  So inputs that can be parsed can be parsed in any order and number, with the same
diagnostics. -/
theorem diagnostics_same_in_any_order :
    (∀ list : List Diagnostics, (Diagnostics.mergeAll list).IsSorted ∧
      ∀ warning, (Diagnostics.mergeAll list).Warns warning ↔
        ∃ diagnostics ∈ list, diagnostics.Warns warning) ∧
    (∀ list other : List Diagnostics, (∀ diagnostics, diagnostics ∈ list ↔ diagnostics ∈ other) →
      Diagnostics.mergeAll list = Diagnostics.mergeAll other) ∧
    ∀ (config : Config) (files : FileTree) (inputs : List String) (ast : Ast)
      (diagnostics : Diagnostics), config.parse files inputs = .ok (ast, diagnostics) →
        ∀ others, (∀ input, input ∈ others ↔ input ∈ inputs) →
          ∃ ast', config.parse files others = .ok (ast', diagnostics) :=
  ⟨fun list => ⟨Diagnostics.isSorted_mergeAll list, Diagnostics.warns_mergeAll list⟩,
    fun _ _ h => Diagnostics.mergeAll_congr h,
    fun _ _ _ ast _ h _ hsame => exists_parse_congr ⟨ast, h⟩ hsame⟩

def importingTree : FileTree :=
  ⟨["work"], [(["work", "a.proto"], .file (Text.Utf8.encode "import \"b.proto\";")),
    (["work", "b.proto"], .file [])]⟩

theorem diagnostics_same_in_any_order_repeated :
    (∃ ast, Config.default.parse importingTree ["a.proto", "b.proto"] =
      .ok (ast, ⟨["a.proto", "b.proto"], [("a.proto", ["b.proto"])]⟩)) ∧
    (∃ ast, Config.default.parse importingTree ["b.proto", "a.proto", "b.proto"] =
      .ok (ast, ⟨["a.proto", "b.proto"], [("a.proto", ["b.proto"])]⟩)) ∧
    Diagnostics.mergeAll [⟨["b"], [("a", [])]⟩, ⟨["a"], [("a", ["c"])]⟩, ⟨["b"], [("a", [])]⟩] =
      ⟨["a", "b"], [("a", ["c"])]⟩ := by
  have hdiagnostics : (Config.default.parse importingTree ["a.proto", "b.proto"]).toOption.map
      (·.2) = some ⟨["a.proto", "b.proto"], [("a.proto", ["b.proto"])]⟩ := by
    decide +kernel
  obtain ⟨-, hmerge, hparses⟩ := diagnostics_same_in_any_order
  cases hparse : Config.default.parse importingTree ["a.proto", "b.proto"] with
  | error fault =>
      rw [hparse] at hdiagnostics
      cases hdiagnostics
  | ok parsed =>
      obtain ⟨ast, diagnostics⟩ := parsed
      rw [hparse] at hdiagnostics
      obtain rfl : diagnostics = _ := Option.some.inj hdiagnostics
      refine ⟨⟨ast, rfl⟩, hparses _ _ _ ast _ hparse _ (by simp), ?_⟩
      rw [hmerge _ [⟨["a"], [("a", ["c"])]⟩, ⟨["b"], [("a", [])]⟩] (by simp)]
      decide

end Config

end SchemaGo
