import Mathlib.Data.List.Dedup
import SchemaGo.Proofs.Option.Substitution
import SchemaGo.Proofs.Success

/-!
# The entries of unwrapped options

Options and the fields of messages are unwrapped into maps under their capitalised
names.  The name of an extension does not say in which scope the extension stands, and
capitalising forgets the case of the first letter, so two values can ask for the same
entry.  Then the later one replaces the earlier.
-/

namespace SchemaGo

namespace Table

variable {α : Type}

theorem mem_keys_ofList (bindings : List (String × α)) (key : String) :
    key ∈ keys (ofList bindings) ↔ key ∈ keys bindings := by
  rw [mem_keys_iff, get?_ofList, ← mem_keys_iff, keys, keys, List.map_reverse, List.mem_reverse]

theorem nodup_keys {table : Table α} (h : IsSorted table) : (keys table).Nodup :=
  List.Pairwise.imp (fun hlt => String.ne_of_lt hlt) h

/-- The table has one entry for every key that is bound, and it is the last binding of the key. -/
structure KeepsLast (bindings : List (String × α)) (table : Table α) : Prop where
  keys : (keys table).Perm (keys bindings).dedup
  value : ∀ key, get? table key = get? bindings.reverse key

theorem keepsLast_ofList (bindings : List (String × α)) :
    KeepsLast bindings (ofList bindings) where
  keys := by
    refine (List.perm_ext_iff_of_nodup (nodup_keys (isSorted_ofList bindings))
      (List.nodup_dedup _)).mpr fun key => ?_
    rw [List.mem_dedup, mem_keys_ofList]
  value := get?_ofList bindings

theorem KeepsLast.length_eq_iff {bindings : List (String × α)} {table : Table α}
    (h : KeepsLast bindings table) :
    table.length = bindings.length ↔ (Table.keys bindings).Nodup := by
  have htable : table.length = (Table.keys bindings).dedup.length := by
    rw [← h.keys.length_eq, Table.keys, List.length_map]
  have hbindings : bindings.length = (Table.keys bindings).length := by
    rw [Table.keys, List.length_map]
  rw [htable, hbindings, ← List.dedup_eq_self]
  exact ⟨(List.dedup_sublist _).eq_of_length, congrArg List.length⟩

end Table

def Schema.customOptions (options : Option Schema.OptionSet) :
    List (Schema.TypeRef × Nat × Schema.Value) :=
  options.elim [] Schema.OptionSet.custom

namespace EmbedScope

def extensionEntries (scope : EmbedScope) (path : SourcePath)
    (custom : List (Schema.TypeRef × Nat × Schema.Value)) : List (String × OptionValue) :=
  custom.map fun (extension, number, value) =>
    (Go.capitalize extension.name,
      value.toRaw.substitute scope.scalarAt (path ++ [pathStep number]))

def fieldEntries (scope : EmbedScope) (path : SourcePath)
    (fields : List (Nat × String × RawValue)) : List (String × OptionValue) :=
  fields.map fun (number, name, value) =>
    (Go.capitalize name, value.substitute scope.scalarAt (path ++ [pathStep number]))

theorem substituteFields_eq_fieldEntries (scope : EmbedScope) (path : SourcePath)
    (fields : List (Nat × String × RawValue)) :
    substituteFields scope.scalarAt path fields = scope.fieldEntries path fields := by
  induction fields with
  | nil => rfl
  | cons field rest ih =>
      rw [substituteFields, ih]
      rfl

theorem of_conclude_eq_ok {scope : EmbedScope} {α : Type} {files : List String}
    {result value : α} {cursor cursor' : Cursor}
    (h : scope.conclude files result cursor = (.ok value, cursor')) :
    value = result ∧ cursor' = cursor.reading files := by
  cases hfault : files.findSome? scope.readFault? with
  | none =>
      rw [conclude_of_no_fault hfault, Prod.mk.injEq, Except.ok.injEq] at h
      exact ⟨h.1.symm, h.2.symm⟩
  | some fault =>
      rw [conclude_of_fault hfault] at h
      cases (Prod.mk.inj h).1

def closed {α : Type} (run : Except EmbedFault α × Cursor) :
    Except EmbedFault (α × List String) :=
  run.1.map fun result => (result, run.2.embedded)

theorem closed_of_fault {scope : EmbedScope} {α : Type} {files : List String} {fault : EmbedFault}
    (h : files.findSome? scope.readFault? = some fault) (result : α) (cursor : Cursor) :
    closed (scope.conclude files result cursor) = .error fault := by
  rw [conclude_of_fault h]
  rfl

theorem closed_of_no_fault {scope : EmbedScope} {α : Type} {files : List String}
    (h : files.findSome? scope.readFault? = none) (result : α) (cursor : Cursor) :
    closed (scope.conclude files result cursor) = .ok (result, cursor.embedded ++ files) := by
  rw [conclude_of_no_fault h]
  rfl

theorem unwrapCustom_eq_closed (scope : EmbedScope) (path : SourcePath) (done : OptionMap)
    (embedded : List String) (custom : List (Schema.TypeRef × Nat × Schema.Value)) :
    scope.unwrapCustom path done embedded custom =
      closed (scope.conclude
        (scope.asked (custom.flatMap fun (_, number, value) =>
          value.toRaw.addresses (path ++ [pathStep number])))
        ((scope.extensionEntries path custom).foldl
          (fun table (key, value) => Table.insert key value table) done)
        ⟨path, embedded⟩) := by
  induction custom generalizing done embedded with
  | nil =>
      rw [unwrapCustom, closed_of_no_fault rfl]
      simp [extensionEntries, asked]
  | cons option rest ih =>
      obtain ⟨extension, number, value⟩ := option
      rw [unwrapCustom, unwrap_eq_conclude, List.flatMap_cons, asked_append]
      dsimp only
      cases hfault : (scope.asked (value.toRaw.addresses (path ++ [pathStep number]))).findSome?
          scope.readFault? with
      | some fault =>
          simp only [conclude_of_fault hfault, conclude_append_of_fault hfault]
          rfl
      | none =>
          simp only [conclude_of_no_fault hfault, conclude_append_of_no_fault hfault]
          exact ih _ _

theorem unwrapOptions_eq_closed (scope : EmbedScope) (path : SourcePath)
    (options : Option Schema.OptionSet) (embedded : List String) :
    scope.unwrapOptions path options embedded =
      closed (scope.conclude (scope.asked (optionAddresses path options))
        (Table.ofList (scope.extensionEntries path (Schema.customOptions options)))
        ⟨path, embedded⟩) := by
  cases options with
  | none =>
      rw [closed_of_no_fault rfl]
      simp [unwrapOptions, asked, optionAddresses, Schema.customOptions, extensionEntries,
        Table.ofList]
  | some options => exact unwrapCustom_eq_closed scope path [] embedded options.custom

theorem keepsLast_of_unwrapOptions {scope : EmbedScope} {path : SourcePath}
    {options : Option Schema.OptionSet} {embedded embedded' : List String} {map : OptionMap}
    (h : scope.unwrapOptions path options embedded = .ok (map, embedded')) :
    Table.KeepsLast (scope.extensionEntries path (Schema.customOptions options)) map := by
  rw [unwrapOptions_eq_closed] at h
  obtain ⟨map', hrun, hmap⟩ := map_eq_ok_iff.mp h
  obtain ⟨rfl, -⟩ := Prod.mk.inj hmap
  rw [(of_conclude_eq_ok (Prod.ext hrun rfl)).1]
  exact Table.keepsLast_ofList _

theorem extensionEntries_congr {scope scope' : EmbedScope} {path : SourcePath}
    {options : Option Schema.OptionSet}
    (h : ∀ address ∈ optionAddresses path options,
      scope.scalarAt address = scope'.scalarAt address) :
    scope.extensionEntries path (Schema.customOptions options) =
      scope'.extensionEntries path (Schema.customOptions options) := by
  cases options with
  | none => rfl
  | some options =>
      refine List.map_congr_left fun option hoption => ?_
      have hvalue := substitute_congr (path ++ [pathStep option.2.1]) option.2.2.toRaw
        fun address haddress => h address (List.mem_flatMap.mpr ⟨option, hoption, haddress⟩)
      exact Prod.ext rfl hvalue

theorem keepsLast_of_unwrap {scope : EmbedScope} {fields : List (Nat × String × RawValue)}
    {cursor cursor' : Cursor} {value : OptionValue}
    (h : scope.unwrap (.message fields) cursor = (.ok value, cursor')) :
    ∃ map, value = .map map ∧ Table.KeepsLast (scope.fieldEntries cursor.path fields) map := by
  rw [unwrap_eq_conclude] at h
  refine ⟨_, (of_conclude_eq_ok h).1, ?_⟩
  rw [substituteFields_eq_fieldEntries]
  exact Table.keepsLast_ofList _

/-- Unwrapping makes one entry for every capitalised name, of an extension or of a field, with the
last value under it.  So there is an entry for each value exactly if the capitalised names are
distinct. -/
theorem unwrap_keeps_last (scope : EmbedScope) :
    (∀ path options embedded map embedded',
      scope.unwrapOptions path options embedded = .ok (map, embedded') →
      Table.KeepsLast (scope.extensionEntries path (Schema.customOptions options)) map ∧
      (map.length = (Schema.customOptions options).length ↔
        ((Schema.customOptions options).map fun option => Go.capitalize option.1.name).Nodup)) ∧
    ∀ fields cursor value cursor', scope.unwrap (.message fields) cursor = (.ok value, cursor') →
      ∃ map, value = .map map ∧
        Table.KeepsLast (scope.fieldEntries cursor.path fields) map ∧
        (map.length = fields.length ↔
          (fields.map fun field => Go.capitalize field.2.1).Nodup) := by
  constructor
  · intro path options embedded map embedded' h
    have hkeeps := keepsLast_of_unwrapOptions h
    refine ⟨hkeeps, ?_⟩
    have hlength := hkeeps.length_eq_iff
    rwa [extensionEntries, List.length_map, Table.keys, List.map_map] at hlength
  · intro fields cursor value cursor' h
    obtain ⟨map, hmap, hkeeps⟩ := keepsLast_of_unwrap h
    refine ⟨map, hmap, hkeeps, ?_⟩
    have hlength := hkeeps.length_eq_iff
    rwa [fieldEntries, List.length_map, Table.keys, List.map_map] at hlength

/-! ## Equal names -/

def notes (names : List (String × String)) : Schema.OptionSet :=
  ⟨names.zipIdx.map fun ((name, fullName), index) =>
    (⟨50001 + index, name, some ⟨name, fullName, "o.proto"⟩⟩, .string fullName), []⟩

def emptyScope : EmbedScope := ⟨.empty, "", .empty []⟩

theorem unwrap_keeps_last_notes :
    (∃ map, emptyScope.unwrapOptions [8]
        (some (notes [("note", "a.note"), ("limit", "b.limit")])) [] = .ok (map, []) ∧
      (Table.keys map).Perm ["Note", "Limit"] ∧ map.length = 2) ∧
    ∃ map, emptyScope.unwrap
        (.message [(1, "low", .scalar (.int 1)), (2, "high", .scalar (.int 2))]) ⟨[8], []⟩ =
          (.ok (.map map), ⟨[8], []⟩) ∧
      (Table.keys map).Perm ["Low", "High"] ∧ map.length = 2 := by
  obtain ⟨options, hoptions⟩ : ∃ map, emptyScope.unwrapOptions [8]
      (some (notes [("note", "a.note"), ("limit", "b.limit")])) [] = .ok (map, []) := ⟨_, rfl⟩
  obtain ⟨entries, hentries⟩ : ∃ map, emptyScope.unwrap
      (.message [(1, "low", .scalar (.int 1)), (2, "high", .scalar (.int 2))]) ⟨[8], []⟩ =
        (.ok (.map map), ⟨[8], []⟩) := ⟨_, rfl⟩
  obtain ⟨hkeeps, hlength⟩ := (unwrap_keeps_last emptyScope).1 _ _ _ _ _ hoptions
  obtain ⟨map, hmap, hkeeps', hlength'⟩ := (unwrap_keeps_last emptyScope).2 _ _ _ _ hentries
  obtain rfl : entries = map := OptionValue.map.inj hmap
  exact ⟨⟨options, hoptions, hkeeps.keys, hlength.mpr (by decide)⟩,
    entries, hentries, hkeeps'.keys, hlength'.mpr (by decide)⟩

/-- Extensions of two scopes with the same simple name, and fields whose names differ in the case
of the first letter, leave one entry. -/
theorem unwrap_loses_entries :
    (∃ map, emptyScope.unwrapOptions [8]
        (some (notes [("note", "a.note"), ("note", "b.note")])) [] = .ok (map, []) ∧
      map.length = 1) ∧
    ∃ map, emptyScope.unwrap
        (.message [(1, "foo", .scalar (.int 1)), (2, "Foo", .scalar (.int 2))]) ⟨[8], []⟩ =
          (.ok (.map map), ⟨[8], []⟩) ∧
      map.length = 1 :=
  ⟨⟨_, rfl, rfl⟩, _, rfl, rfl⟩

end EmbedScope

end SchemaGo
