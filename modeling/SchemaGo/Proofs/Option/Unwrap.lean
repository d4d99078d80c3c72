import SchemaGo.Lower.OptionValue
import SchemaGo.Proofs.Comment.Render
import SchemaGo.Proofs.Option.Shape

/-!
# Unwrapping reads below its path

Unwrapping a value comes back to the path where it started, whatever happens on
the way down.  So it sees the directives at that path and below it, and no
comment elsewhere makes a difference to the result.  The tables in the result
are sorted.
-/

namespace SchemaGo

@[simp] theorem Cursor.path_push (cursor : Cursor) (step : Int) :
    (cursor.push step).path = cursor.path ++ [step] := rfl

@[simp] theorem Cursor.path_pop (cursor : Cursor) :
    cursor.pop.path = cursor.path.dropLast := rfl

namespace EmbedScope

/-! ## The path of the cursor -/

@[simp] theorem path_unwrapScalar (scope : EmbedScope) (scalar : Scalar) (cursor : Cursor) :
    (scope.unwrapScalar scalar cursor).2.path = cursor.path := by
  rw [unwrapScalar]
  split
  · rfl
  · split <;> rfl

mutual

theorem path_unwrap (scope : EmbedScope) (value : RawValue) (cursor : Cursor) :
    (scope.unwrap value cursor).2.path = cursor.path := by
  cases value with
  | scalar scalar => simp [unwrap]
  | list items =>
      have hitems := path_unwrapItems scope 0 items cursor
      rw [unwrap]
      split <;> simp_all
  | message fields =>
      have hfields := path_unwrapFields scope [] fields cursor
      rw [unwrap]
      split <;> simp_all
  | map entries =>
      have hentries := path_unwrapEntries scope [] entries cursor
      rw [unwrap]
      split <;> simp_all
termination_by structural value

theorem path_unwrapItems (scope : EmbedScope) (index : Nat) (items : List RawValue)
    (cursor : Cursor) : (unwrapItems scope index items cursor).2.path = cursor.path := by
  cases items with
  | nil => rfl
  | cons item rest =>
      have hitem := path_unwrap scope item (cursor.push (pathStep index))
      rw [unwrapItems]
      split
      · simp_all
      · rename_i between hrun
        have hrest := path_unwrapItems scope (index + 1) rest between.pop
        split <;> simp_all
termination_by structural items

theorem path_unwrapFields (scope : EmbedScope) (done : OptionMap)
    (fields : List (Nat × String × RawValue)) (cursor : Cursor) :
    (unwrapFields scope done fields cursor).2.path = cursor.path := by
  cases fields with
  | nil => rfl
  | cons field rest =>
      obtain ⟨number, name, value⟩ := field
      have hvalue := path_unwrap scope value (cursor.push (pathStep number))
      rw [unwrapFields]
      split
      · simp_all
      · rw [path_unwrapFields scope _ rest]
        simp_all
termination_by structural fields

theorem path_unwrapEntries (scope : EmbedScope) (done : OptionMap)
    (entries : List (String × RawValue)) (cursor : Cursor) :
    (unwrapEntries scope done entries cursor).2.path = cursor.path := by
  cases entries with
  | nil => rfl
  | cons entry rest =>
      obtain ⟨key, value⟩ := entry
      have hvalue := path_unwrap scope value cursor
      rw [unwrapEntries]
      split
      · simp_all
      · rw [path_unwrapEntries scope _ rest]
        simp_all
termination_by structural entries

end

/-! ## Sorted tables -/

theorem isSorted_map_nil : OptionValue.IsSorted (.map []) :=
  .map Table.isSorted_nil (by simp)

theorem isSorted_map_insert {entries : OptionMap} {value : OptionValue} (key : String)
    (h : OptionValue.IsSorted (.map entries)) (hvalue : value.IsSorted) :
    OptionValue.IsSorted (.map (Table.insert key value entries)) := by
  obtain ⟨hsorted, hparts⟩ := OptionValue.isSorted_map_iff.mp h
  have hinsert := Table.isSorted_insert key value hsorted
  refine OptionValue.isSorted_map_iff.mpr ⟨hinsert, fun entry hentry => ?_⟩
  have hget := Table.get?_of_mem hinsert hentry
  rw [Table.get?_insert] at hget
  split at hget
  · cases hget
    exact hvalue
  · exact hparts _ (Table.mem_of_get? hget)

mutual

theorem isSorted_unwrap {scope : EmbedScope} (value : RawValue) {cursor after : Cursor}
    {result : OptionValue} (h : scope.unwrap value cursor = (.ok result, after)) :
    result.IsSorted := by
  cases value with
  | scalar scalar =>
      rw [unwrap, unwrapScalar] at h
      split at h
      · cases h
        exact .scalar _
      · split at h
        · cases h
        · cases h
          exact .scalar _
  | list items =>
      rw [unwrap] at h
      split at h
      · rename_i hrun
        cases h
        exact .list (isSorted_unwrapItems items hrun)
      · cases h
  | message fields =>
      rw [unwrap] at h
      split at h
      · rename_i hrun
        cases h
        exact isSorted_unwrapFields fields isSorted_map_nil hrun
      · cases h
  | map entries =>
      rw [unwrap] at h
      split at h
      · rename_i hrun
        cases h
        exact isSorted_unwrapEntries entries isSorted_map_nil hrun
      · cases h
termination_by structural value

theorem isSorted_unwrapItems {scope : EmbedScope} {index : Nat} (items : List RawValue)
    {cursor after : Cursor} {results : List OptionValue}
    (h : unwrapItems scope index items cursor = (.ok results, after)) :
    ∀ result ∈ results, result.IsSorted := by
  cases items with
  | nil =>
      cases h
      simp
  | cons item rest =>
      rw [unwrapItems] at h
      split at h
      · cases h
      · rename_i hitem
        split at h
        · rename_i hrest
          cases h
          exact List.forall_mem_cons.mpr
            ⟨isSorted_unwrap item hitem, isSorted_unwrapItems rest hrest⟩
        · cases h
termination_by structural items

theorem isSorted_unwrapFields {scope : EmbedScope} {done : OptionMap}
    (fields : List (Nat × String × RawValue)) {cursor after : Cursor} {result : OptionMap}
    (hdone : OptionValue.IsSorted (.map done))
    (h : unwrapFields scope done fields cursor = (.ok result, after)) :
    OptionValue.IsSorted (.map result) := by
  cases fields with
  | nil =>
      cases h
      exact hdone
  | cons field rest =>
      obtain ⟨number, name, value⟩ := field
      rw [unwrapFields] at h
      split at h
      · cases h
      · rename_i hvalue
        exact isSorted_unwrapFields rest
          (isSorted_map_insert _ hdone (isSorted_unwrap value hvalue)) h
termination_by structural fields

theorem isSorted_unwrapEntries {scope : EmbedScope} {done : OptionMap}
    (entries : List (String × RawValue)) {cursor after : Cursor} {result : OptionMap}
    (hdone : OptionValue.IsSorted (.map done))
    (h : unwrapEntries scope done entries cursor = (.ok result, after)) :
    OptionValue.IsSorted (.map result) := by
  cases entries with
  | nil =>
      cases h
      exact hdone
  | cons entry rest =>
      obtain ⟨key, value⟩ := entry
      rw [unwrapEntries] at h
      split at h
      · cases h
      · rename_i hvalue
        exact isSorted_unwrapEntries rest
          (isSorted_map_insert _ hdone (isSorted_unwrap value hvalue)) h
termination_by structural entries

end

theorem isSorted_unwrapCustom {scope : EmbedScope} {path : SourcePath} {done result : OptionMap}
    {embedded embedded' : List String} (hdone : OptionValue.IsSorted (.map done))
    (options : List (Schema.TypeRef × Nat × Schema.Value))
    (h : scope.unwrapCustom path done embedded options = .ok (result, embedded')) :
    OptionValue.IsSorted (.map result) := by
  induction options generalizing done embedded with
  | nil =>
      cases h
      exact hdone
  | cons option rest ih =>
      obtain ⟨extension, number, value⟩ := option
      rw [unwrapCustom] at h
      split at h
      · cases h
      · rename_i hvalue
        exact ih (isSorted_map_insert _ hdone (isSorted_unwrap value.toRaw hvalue)) h

theorem isSorted_unwrapOptions {scope : EmbedScope} {path : SourcePath}
    {options : Option Schema.OptionSet} {result : OptionMap} {embedded embedded' : List String}
    (h : scope.unwrapOptions path options embedded = .ok (result, embedded')) :
    OptionValue.IsSorted (.map result) := by
  cases options with
  | none =>
      cases h
      exact isSorted_map_nil
  | some options => exact isSorted_unwrapCustom isSorted_map_nil options.custom h

/-! ## Comments elsewhere -/

/-- Two scopes with the same files that see the same comments at a path and below it. -/
structure AgreeBelow (scope scope' : EmbedScope) (path : SourcePath) : Prop where
  directory : scope'.directory = scope.directory
  files : scope'.files = scope.files
  comments : ∀ below : SourcePath, path <+: below →
    scope'.comments.get? below.render = scope.comments.get? below.render

variable {scope scope' : EmbedScope} {path : SourcePath}

theorem AgreeBelow.append (h : AgreeBelow scope scope' path) (steps : SourcePath) :
    AgreeBelow scope scope' (path ++ steps) :=
  ⟨h.directory, h.files, fun below hbelow =>
    h.comments below ((List.prefix_append path steps).trans hbelow)⟩

theorem AgreeBelow.target? (h : AgreeBelow scope scope' path) :
    scope'.target? path = scope.target? path := by
  simp only [EmbedScope.target?, Comments.directiveValues, h.directory,
    h.comments path (List.prefix_refl path)]

theorem unwrapScalar_congr (scalar : Scalar) {cursor : Cursor}
    (h : AgreeBelow scope scope' cursor.path) :
    scope'.unwrapScalar scalar cursor = scope.unwrapScalar scalar cursor := by
  rw [unwrapScalar, unwrapScalar, h.target?, h.files]

mutual

theorem unwrap_congr (value : RawValue) {cursor : Cursor}
    (h : AgreeBelow scope scope' cursor.path) :
    scope'.unwrap value cursor = scope.unwrap value cursor := by
  cases value with
  | scalar scalar => exact unwrapScalar_congr scalar h
  | list items => rw [unwrap, unwrap, unwrapItems_congr 0 items h]
  | message fields => rw [unwrap, unwrap, unwrapFields_congr [] fields h]
  | map entries => rw [unwrap, unwrap, unwrapEntries_congr [] entries h]
termination_by structural value

theorem unwrapItems_congr (index : Nat) (items : List RawValue) {cursor : Cursor}
    (h : AgreeBelow scope scope' cursor.path) :
    unwrapItems scope' index items cursor = unwrapItems scope index items cursor := by
  cases items with
  | nil => rfl
  | cons item rest =>
      have hpath := path_unwrap scope item (cursor.push (pathStep index))
      rw [unwrapItems, unwrapItems, unwrap_congr item (h.append [pathStep index])]
      split
      · rfl
      · rename_i between hrun
        have hback : AgreeBelow scope scope' between.pop.path := by simp_all
        rw [unwrapItems_congr (index + 1) rest hback]
termination_by structural items

theorem unwrapFields_congr (done : OptionMap) (fields : List (Nat × String × RawValue))
    {cursor : Cursor} (h : AgreeBelow scope scope' cursor.path) :
    unwrapFields scope' done fields cursor = unwrapFields scope done fields cursor := by
  cases fields with
  | nil => rfl
  | cons field rest =>
      obtain ⟨number, name, value⟩ := field
      have hpath := path_unwrap scope value (cursor.push (pathStep number))
      rw [unwrapFields, unwrapFields, unwrap_congr value (h.append [pathStep number])]
      split
      · rfl
      · rename_i between hrun
        have hback : AgreeBelow scope scope' between.pop.path := by simp_all
        exact unwrapFields_congr _ rest hback
termination_by structural fields

theorem unwrapEntries_congr (done : OptionMap) (entries : List (String × RawValue))
    {cursor : Cursor} (h : AgreeBelow scope scope' cursor.path) :
    unwrapEntries scope' done entries cursor = unwrapEntries scope done entries cursor := by
  cases entries with
  | nil => rfl
  | cons entry rest =>
      obtain ⟨key, value⟩ := entry
      have hpath := path_unwrap scope value cursor
      rw [unwrapEntries, unwrapEntries, unwrap_congr value h]
      split
      · rfl
      · rename_i between hrun
        have hback : AgreeBelow scope scope' between.path := by simp_all
        exact unwrapEntries_congr _ rest hback
termination_by structural entries

end

theorem unwrapCustom_congr (h : AgreeBelow scope scope' path) (done : OptionMap)
    (embedded : List String) (options : List (Schema.TypeRef × Nat × Schema.Value)) :
    scope'.unwrapCustom path done embedded options =
      scope.unwrapCustom path done embedded options := by
  induction options generalizing done embedded with
  | nil => rfl
  | cons option rest ih =>
      obtain ⟨extension, number, value⟩ := option
      have hvalue := unwrap_congr value.toRaw
        (show AgreeBelow scope scope' (Cursor.mk (path ++ [pathStep number]) embedded).path
          from h.append [pathStep number])
      rw [unwrapCustom, unwrapCustom, hvalue]
      split
      · rfl
      · exact ih _ _

theorem unwrapOptions_congr (h : AgreeBelow scope scope' path)
    (options : Option Schema.OptionSet) (embedded : List String) :
    scope'.unwrapOptions path options embedded = scope.unwrapOptions path options embedded := by
  cases options with
  | none => rfl
  | some options => exact unwrapCustom_congr h [] embedded options.custom

def withComment (scope : EmbedScope) (path : SourcePath) (comment : String) : EmbedScope :=
  { scope with comments := scope.comments.insert path.render comment }

theorem agreeBelow_withComment {place : SourcePath} (comment : String)
    (h : ¬ path <+: place) : AgreeBelow scope (scope.withComment place comment) path := by
  refine ⟨rfl, rfl, fun (below : SourcePath) hbelow => ?_⟩
  have hother : below.render ≠ place.render := by
    intro heq
    rw [SourcePath.render_injective heq] at hbelow
    exact h hbelow
  simp [withComment, Comments.insert, Comments.get?, Table.get?_insert, hother]

end EmbedScope

end SchemaGo
