import SchemaGo.Option.Shape
import SchemaGo.Proofs.Table

/-!
# Shapes key by key

A key that a map lacks and an item that no list has shown carry the same
information: none.  Reading a missing key as the unknown shape makes every
operation on maps of shapes pointwise, and the statements about merging and
filling below are made for one key at a time.
-/

namespace SchemaGo

namespace OptionShape

/-- The shape at a key; a key that the table lacks has the unknown shape. -/
def atKey (entries : Table OptionShape) (key : String) : OptionShape :=
  (Table.get? entries key).getD .unknown

@[simp] theorem atKey_nil (key : String) : atKey [] key = .unknown := rfl

theorem atKey_of_get? {entries : Table OptionShape} {key : String}
    {shape : OptionShape} (h : Table.get? entries key = some shape) :
    atKey entries key = shape := by
  rw [atKey, h, Option.getD_some]

theorem atKey_of_none {entries : Table OptionShape} {key : String}
    (h : Table.get? entries key = none) : atKey entries key = .unknown := by
  rw [atKey, h, Option.getD_none]

@[elab_as_elim]
theorem inductionOnKeys {motive : OptionShape → Prop}
    (leaf : ∀ type, motive (.leaf type))
    (list : ∀ item, motive item → motive (.list item))
    (map : ∀ entries, (∀ key, motive (atKey entries key)) → motive (.map entries))
    (unknown : motive .unknown) : ∀ shape, motive shape
  | .leaf type => leaf type
  | .list item => list item (inductionOnKeys leaf list map unknown item)
  | .unknown => unknown
  | .map entries => by
      apply map
      intro key
      cases h : Table.get? entries key with
      | none => exact atKey_of_none h ▸ unknown
      | some shape =>
          have hmem := List.sizeOf_lt_of_mem (Table.mem_of_get? h)
          exact atKey_of_get? h ▸ inductionOnKeys leaf list map unknown shape
termination_by shape => sizeOf shape
decreasing_by
  · simp
  · simp only [Prod.mk.sizeOf_spec] at hmem
    simp only [OptionShape.map.sizeOf_spec]
    omega

/-! ## Merging -/

@[simp] theorem merge_unknown_right (shape : OptionShape) :
    merge shape .unknown = shape := by
  cases shape <;> rfl

@[simp] theorem merge_unknown_left (shape : OptionShape) :
    merge .unknown shape = shape := rfl

@[simp] theorem merge_leaf (type : ScalarType) (shape : OptionShape) :
    merge (.leaf type) shape = .leaf type := rfl

@[simp] theorem merge_list_list (item other : OptionShape) :
    merge (.list item) (.list other) = .list (merge item other) := rfl

@[simp] theorem merge_map_map (entries others : Table OptionShape) :
    merge (.map entries) (.map others) = .map (mergeTables entries others) := rfl

theorem mergeEntries_eq_map (entries others : Table OptionShape) :
    mergeEntries entries others =
      entries.map fun entry => (entry.1, merge entry.2 (atKey others entry.1)) := by
  induction entries with
  | nil => rfl
  | cons entry rest ih =>
      obtain ⟨key, shape⟩ := entry
      rw [mergeEntries, ih, List.map_cons]
      cases h : Table.get? others key with
      | none => simp [atKey_of_none h]
      | some other => simp [atKey_of_get? h]

@[simp] theorem atKey_mergeTables (entries others : Table OptionShape)
    (key : String) :
    atKey (mergeTables entries others) key =
      merge (atKey entries key) (atKey others key) := by
  rw [atKey, mergeTables, Table.get?_addMissing, mergeEntries_eq_map,
    Table.get?_map fun key shape => merge shape (atKey others key)]
  cases h : Table.get? entries key with
  | none =>
      rw [atKey_of_none h, merge_unknown_left]
      rfl
  | some shape => simp [atKey_of_get? h]

theorem isSorted_mergeTables {entries : Table OptionShape}
    (others : Table OptionShape) (h : Table.IsSorted entries) :
    Table.IsSorted (mergeTables entries others) := by
  apply Table.isSorted_addMissing
  rw [mergeEntries_eq_map]
  exact (Table.isSorted_map fun key shape => merge shape (atKey others key)).mpr h

/-! ## Shapes of values -/

@[simp] theorem ofValue_scalar (scalar : Scalar) :
    ofValue (.scalar scalar) = .leaf scalar.type := rfl

@[simp] theorem ofValue_list (items : List OptionValue) :
    ofValue (.list items) = .list (ofItems .unknown items) := rfl

@[simp] theorem ofValue_map (entries : OptionMap) :
    ofValue (.map entries) = .map (ofEntries entries) := rfl

theorem ofValue_ne_unknown (value : OptionValue) : ofValue value ≠ .unknown := by
  cases value <;> simp

theorem ofEntries_eq_map (entries : OptionMap) :
    ofEntries entries = entries.map fun entry => (entry.1, ofValue entry.2) := by
  induction entries with
  | nil => rfl
  | cons entry rest ih => rw [ofEntries, ih, List.map_cons]

theorem get?_ofEntries (entries : OptionMap) (key : String) :
    Table.get? (ofEntries entries) key =
      (Table.get? entries key).map ofValue := by
  rw [ofEntries_eq_map]
  exact Table.get?_map (fun _ => ofValue) entries key

theorem isSorted_ofEntries {entries : OptionMap} (h : Table.IsSorted entries) :
    Table.IsSorted (ofEntries entries) := by
  rw [ofEntries_eq_map]
  exact (Table.isSorted_map fun _ => ofValue).mpr h

theorem atKey_ofEntries_of_get? {entries : OptionMap} {key : String}
    {value : OptionValue} (h : Table.get? entries key = some value) :
    atKey (ofEntries entries) key = ofValue value := by
  apply atKey_of_get?
  rw [get?_ofEntries, h, Option.map_some]

theorem atKey_ofEntries_of_none {entries : OptionMap} {key : String}
    (h : Table.get? entries key = none) :
    atKey (ofEntries entries) key = .unknown := by
  apply atKey_of_none
  rw [get?_ofEntries, h, Option.map_none]

/-! ## Zeros and filling -/

theorem zeroEntries_eq_map (entries : Table OptionShape) :
    zeroEntries entries = entries.map fun entry => (entry.1, zero entry.2) := by
  induction entries with
  | nil => rfl
  | cons entry rest ih => rw [zeroEntries, ih, List.map_cons]

theorem get?_zeroEntries (entries : Table OptionShape) (key : String) :
    Table.get? (zeroEntries entries) key = (Table.get? entries key).map zero := by
  rw [zeroEntries_eq_map]
  exact Table.get?_map (fun _ => zero) entries key

theorem isSorted_zeroEntries {entries : Table OptionShape}
    (h : Table.IsSorted entries) : Table.IsSorted (zeroEntries entries) := by
  rw [zeroEntries_eq_map]
  exact (Table.isSorted_map fun _ => zero).mpr h

def fillAt (shape : OptionShape) : Option OptionValue → OptionValue
  | some value => fill shape value
  | none => zero shape

theorem fillEntries_cons (key : String) (shape : OptionShape)
    (rest : Table OptionShape) (entries : OptionMap) :
    fillEntries ((key, shape) :: rest) entries =
      fillEntries rest
        (Table.insert key (fillAt shape (Table.get? entries key)) entries) := by
  rw [fillEntries]
  cases Table.get? entries key <;> rfl

theorem get?_fillEntries_of_none {shapes : Table OptionShape} {key : String}
    (h : Table.get? shapes key = none) (entries : OptionMap) :
    Table.get? (fillEntries shapes entries) key = Table.get? entries key := by
  induction shapes generalizing entries with
  | nil => rfl
  | cons entry rest ih =>
      obtain ⟨k, shape⟩ := entry
      rw [Table.get?_cons] at h
      split at h
      · simp at h
      · rename_i hk
        rw [fillEntries_cons, ih h, Table.get?_insert, if_neg hk]

theorem get?_fillEntries_of_some {shapes : Table OptionShape}
    (hsorted : Table.IsSorted shapes) {key : String} {shape : OptionShape}
    (h : Table.get? shapes key = some shape) (entries : OptionMap) :
    Table.get? (fillEntries shapes entries) key =
      some (fillAt shape (Table.get? entries key)) := by
  induction shapes generalizing entries with
  | nil => simp at h
  | cons entry rest ih =>
      obtain ⟨k, first⟩ := entry
      obtain ⟨hfirst, hrest⟩ := Table.isSorted_cons.mp hsorted
      rw [Table.get?_cons] at h
      rw [fillEntries_cons]
      split at h
      · rename_i hk
        subst hk
        have habsent : Table.get? rest key = none := by
          by_contra hsome
          have hmem := (Table.mem_keys_iff rest key).mpr
            (Option.isSome_iff_ne_none.mpr hsome)
          exact String.lt_irrefl key (hfirst key hmem)
        simp only [Option.some.injEq] at h
        rw [get?_fillEntries_of_none habsent, Table.get?_insert, if_pos rfl, h]
      · rename_i hk
        rw [ih hrest h, Table.get?_insert, if_neg hk]

theorem isSorted_fillEntries (shapes : Table OptionShape) {entries : OptionMap}
    (h : Table.IsSorted entries) :
    Table.IsSorted (fillEntries shapes entries) := by
  induction shapes generalizing entries with
  | nil => exact h
  | cons entry rest ih =>
      obtain ⟨k, shape⟩ := entry
      rw [fillEntries_cons]
      exact ih (Table.isSorted_insert k _ h)

end OptionShape

/-! ## Well-formed values and shapes -/

inductive OptionValue.IsSorted : OptionValue → Prop
  | scalar (scalar : Scalar) : IsSorted (.scalar scalar)
  | list {items : List OptionValue} (hitems : ∀ item ∈ items, IsSorted item) :
      IsSorted (.list items)
  | map {entries : OptionMap} (hsorted : Table.IsSorted entries)
      (hparts : ∀ entry ∈ entries, IsSorted entry.2) : IsSorted (.map entries)

namespace OptionValue

theorem isSorted_list_iff {items : List OptionValue} :
    IsSorted (.list items) ↔ ∀ item ∈ items, item.IsSorted :=
  ⟨fun h => by cases h; assumption, .list⟩

theorem isSorted_map_iff {entries : OptionMap} :
    IsSorted (.map entries) ↔
      Table.IsSorted entries ∧ ∀ entry ∈ entries, entry.2.IsSorted :=
  ⟨fun h => by cases h; constructor <;> assumption, fun h => .map h.1 h.2⟩

end OptionValue

namespace OptionShape

/-- Every map in the shape is a sorted table, and what it says of a key is
known.  Then a missing key is the only one that is read as unknown. -/
inductive WellFormed : OptionShape → Prop
  | unknown : WellFormed .unknown
  | leaf (type : ScalarType) : WellFormed (.leaf type)
  | list {item : OptionShape} (hitem : WellFormed item) : WellFormed (.list item)
  | map {entries : Table OptionShape} (hsorted : Table.IsSorted entries)
      (hknown : ∀ key, Table.get? entries key ≠ some .unknown)
      (hparts : ∀ key, WellFormed (atKey entries key)) :
      WellFormed (.map entries)

theorem merge_eq_unknown_iff {left right : OptionShape} :
    merge left right = .unknown ↔ left = .unknown ∧ right = .unknown := by
  cases left <;> cases right <;> simp [merge]

theorem get?_mergeTables_ne_unknown {entries others : Table OptionShape}
    (hentries : ∀ key, Table.get? entries key ≠ some .unknown)
    (hothers : ∀ key, Table.get? others key ≠ some .unknown) (key : String) :
    Table.get? (mergeTables entries others) key ≠ some .unknown := by
  rw [mergeTables, Table.get?_addMissing, mergeEntries_eq_map,
    Table.get?_map fun key shape => merge shape (atKey others key)]
  cases h : Table.get? entries key with
  | none => exact hothers key
  | some shape =>
      intro hmerge
      have heq : merge shape (atKey others key) = .unknown := by
        simpa using hmerge
      exact hentries key (h.trans (by rw [(merge_eq_unknown_iff.mp heq).1]))

theorem WellFormed.merge {left right : OptionShape} (hleft : WellFormed left)
    (hright : WellFormed right) : WellFormed (merge left right) := by
  induction hleft generalizing right with
  | unknown => exact hright
  | leaf type => exact .leaf type
  | list hitem ih =>
      cases hright with
      | list hother => exact .list (ih hother)
      | _ => exact .list hitem
  | map hsorted hknown hparts ih =>
      cases hright with
      | map hsorted' hknown' hparts' =>
          rw [merge_map_map]
          refine .map (isSorted_mergeTables _ hsorted)
            (get?_mergeTables_ne_unknown hknown hknown') fun key => ?_
          rw [atKey_mergeTables]
          exact ih key (hparts' key)
      | _ => exact .map hsorted hknown hparts

theorem wellFormed_ofItems {items : List OptionValue} {known : OptionShape}
    (hknown : WellFormed known)
    (hitems : ∀ item ∈ items, WellFormed (ofValue item)) :
    WellFormed (ofItems known items) := by
  induction items generalizing known with
  | nil => exact hknown
  | cons item rest ih =>
      exact ih (hknown.merge (hitems item (by simp)))
        fun other hother => hitems other (by simp [hother])

theorem wellFormed_ofValue {value : OptionValue} (h : value.IsSorted) :
    WellFormed (ofValue value) := by
  induction h with
  | scalar scalar => exact .leaf scalar.type
  | list _ ih => exact .list (wellFormed_ofItems .unknown ih)
  | @map entries hsorted _ ih =>
      refine .map (isSorted_ofEntries hsorted) ?_ ?_
      · intro key hunknown
        rw [get?_ofEntries] at hunknown
        obtain ⟨value, -, hvalue⟩ := Option.map_eq_some_iff.mp hunknown
        exact ofValue_ne_unknown value hvalue
      · intro key
        cases hkey : Table.get? entries key with
        | none => exact atKey_ofEntries_of_none hkey ▸ .unknown
        | some value =>
            rw [atKey_ofEntries_of_get? hkey]
            exact ih _ (Table.mem_of_get? hkey)

end OptionShape

end SchemaGo
