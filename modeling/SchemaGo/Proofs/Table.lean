import Mathlib.Data.List.Induction
import Mathlib.Data.List.Sort
import SchemaGo.Table

/-!
# Lookup in sorted tables

What `insert` and `addMissing` do to a lookup, and that they keep the keys in
ascending order.  Two sorted tables that answer every lookup alike are equal,
which turns statements about keys into statements about the lists themselves.
Sets of texts are described by their members, and insertion keeps them in order.
-/

namespace SchemaGo.TextSet

@[simp] theorem mem_insert (text other : String) (set : TextSet) :
    other ∈ TextSet.insert text set ↔ other = text ∨ other ∈ set := by
  induction set with
  | nil => simp [TextSet.insert]
  | cons first rest ih =>
      rw [TextSet.insert]
      split
      · simp
      · split
        · rename_i heq
          simp [heq]
        · rw [List.mem_cons, List.mem_cons, ih, or_left_comm]

@[simp] theorem mem_union (left right : TextSet) (text : String) :
    text ∈ union left right ↔ text ∈ left ∨ text ∈ right := by
  induction right generalizing left with
  | nil => simp [union]
  | cons first rest ih =>
      have hstep : union left (first :: rest) = union (TextSet.insert first left) rest := rfl
      rw [hstep, ih, mem_insert, List.mem_cons, or_assoc, or_left_comm]

@[simp] theorem mem_ofList (texts : List String) (text : String) :
    text ∈ ofList texts ↔ text ∈ texts := by
  simp [ofList]

/-! ## Order -/

def IsSorted (set : TextSet) : Prop := set.Pairwise (· < ·)

theorem isSorted_insert (text : String) {set : TextSet} (h : IsSorted set) :
    IsSorted (TextSet.insert text set) := by
  induction set with
  | nil => exact List.pairwise_singleton _ _
  | cons first rest ih =>
      obtain ⟨hfirst, hrest⟩ := List.pairwise_cons.mp h
      rw [TextSet.insert]
      split
      · rename_i hlt
        refine List.pairwise_cons.mpr ⟨List.forall_mem_cons.mpr ⟨hlt, fun other hother => ?_⟩, h⟩
        exact String.lt_trans hlt (hfirst other hother)
      · rename_i hlt
        split
        · rename_i heq
          exact List.pairwise_cons.mpr ⟨heq ▸ hfirst, hrest⟩
        · rename_i hne
          refine List.pairwise_cons.mpr ⟨fun other hother => ?_, ih hrest⟩
          rcases (mem_insert text other rest).mp hother with rfl | hother
          · by_contra hge
            exact hne (String.le_antisymm hge hlt)
          · exact hfirst other hother

theorem isSorted_union {left : TextSet} (right : TextSet) (h : IsSorted left) :
    IsSorted (union left right) :=
  List.foldlRecOn right _ h fun _ hset text _ => isSorted_insert text hset

theorem eq_of_mem_iff {left right : TextSet} (hleft : IsSorted left) (hright : IsSorted right)
    (h : ∀ text, text ∈ left ↔ text ∈ right) : left = right :=
  have : Std.Antisymm fun a b : String => a < b :=
    ⟨fun _ _ hab hba => absurd hba (String.lt_asymm hab)⟩
  have : Std.Irrefl fun a b : String => a < b := ⟨String.lt_irrefl⟩
  List.Pairwise.eq_of_mem_iff hleft hright h

end SchemaGo.TextSet

namespace SchemaGo.Table

variable {α : Type}

/-! ## Lookup -/

@[simp] theorem get?_nil (key : String) : get? ([] : Table α) key = none := rfl

theorem get?_cons (key other : String) (value : α) (table : Table α) :
    get? ((key, value) :: table) other =
      if other = key then some value else get? table other := by
  by_cases h : other = key
  · simp [get?, h]
  · have hne : (other == key) = false := by simpa using h
    simp [get?, List.lookup_cons, h, hne]

theorem get?_insert (key other : String) (value : α) (table : Table α) :
    get? (Table.insert key value table) other =
      if other = key then some value else get? table other := by
  induction table with
  | nil => exact get?_cons key other value []
  | cons entry rest ih =>
      obtain ⟨k, v⟩ := entry
      rw [Table.insert]
      split
      · exact get?_cons key other value ((k, v) :: rest)
      · split
        · rename_i heq
          subst heq
          rw [get?_cons, get?_cons]
          split <;> rfl
        · rename_i hne
          rw [get?_cons, get?_cons, ih]
          by_cases hk : other = k
          · subst hk
            rw [if_pos rfl, if_pos rfl, if_neg (fun h => hne h.symm)]
          · rw [if_neg hk, if_neg hk]

theorem addMissing_cons (key : String) (value : α) (rest table : Table α) :
    addMissing ((key, value) :: rest) table =
      addMissing rest
        (if (get? table key).isSome then table
        else Table.insert key value table) := rfl

theorem get?_addMissing (bindings table : Table α) (key : String) :
    get? (addMissing bindings table) key =
      (get? table key).or (get? bindings key) := by
  induction bindings generalizing table with
  | nil => simp [addMissing]
  | cons entry rest ih =>
      obtain ⟨k, v⟩ := entry
      rw [addMissing_cons, ih, get?_cons]
      by_cases hk : key = k
      · subst hk
        cases htable : get? table key with
        | none => simp [get?_insert]
        | some value => simp [htable]
      · cases htable : get? table k with
        | none => simp [get?_insert, hk]
        | some value => simp [hk]

theorem mem_of_get? {table : Table α} {key : String} {value : α}
    (h : get? table key = some value) : (key, value) ∈ table := by
  induction table with
  | nil => simp at h
  | cons entry rest ih =>
      obtain ⟨k, v⟩ := entry
      rw [get?_cons] at h
      split at h
      · rename_i heq
        simp only [Option.some.injEq] at h
        simp [heq, h]
      · exact List.mem_cons_of_mem _ (ih h)

theorem mem_keys_iff (table : Table α) (key : String) :
    key ∈ keys table ↔ (get? table key).isSome := by
  induction table with
  | nil => simp [keys]
  | cons entry rest ih =>
      obtain ⟨k, v⟩ := entry
      simp only [keys, List.map_cons, List.mem_cons] at ih ⊢
      rw [get?_cons, ih]
      by_cases hk : key = k <;> simp [hk]

theorem get?_map {β : Type} (f : String → α → β) (table : Table α)
    (key : String) :
    get? (table.map fun entry => (entry.1, f entry.1 entry.2)) key =
      (get? table key).map (f key) := by
  induction table with
  | nil => rfl
  | cons entry rest ih =>
      obtain ⟨k, v⟩ := entry
      rw [List.map_cons, get?_cons, get?_cons, ih]
      by_cases hk : key = k <;> simp [hk]

theorem insert_insert_self (key : String) (value : α) (table : Table α) :
    Table.insert key value (Table.insert key value table) =
      Table.insert key value table := by
  have hself (rest : Table α) :
      Table.insert key value ((key, value) :: rest) = (key, value) :: rest := by
    rw [Table.insert, if_neg (String.lt_irrefl key), if_pos rfl]
  induction table with
  | nil => exact hself []
  | cons entry rest ih =>
      obtain ⟨k, v⟩ := entry
      rw [Table.insert]
      split
      · exact hself _
      · rename_i hlt
        split
        · exact hself _
        · rename_i hne
          rw [Table.insert, if_neg hlt, if_neg hne, ih]

/-! ## Order -/

instance (table : Table α) : Decidable (IsSorted table) :=
  inferInstanceAs (Decidable ((keys table).Pairwise (· < ·)))

theorem isSorted_nil : IsSorted ([] : Table α) := List.Pairwise.nil

theorem isSorted_cons {key : String} {value : α} {table : Table α} :
    IsSorted ((key, value) :: table) ↔
      (∀ other ∈ keys table, key < other) ∧ IsSorted table :=
  List.pairwise_cons

theorem isSorted_map {β : Type} (f : String → α → β) {table : Table α} :
    IsSorted (table.map fun entry => (entry.1, f entry.1 entry.2)) ↔
      IsSorted table := by
  simp only [IsSorted, keys, List.map_map, Function.comp_def]

theorem keys_insert (key : String) (value : α) (table : Table α) :
    keys (Table.insert key value table) = TextSet.insert key (keys table) := by
  induction table with
  | nil => rfl
  | cons entry rest ih =>
      obtain ⟨k, v⟩ := entry
      have hcons : keys ((k, v) :: rest) = k :: keys rest := rfl
      rw [Table.insert, hcons, TextSet.insert]
      split
      · rfl
      · split
        · rename_i heq
          rw [heq]
          rfl
        · rw [← ih]
          rfl

theorem mem_keys_insert {key other : String} {value : α} {table : Table α} :
    other ∈ keys (Table.insert key value table) ↔
      other = key ∨ other ∈ keys table := by
  rw [keys_insert, TextSet.mem_insert]

theorem isSorted_insert {table : Table α} (key : String) (value : α)
    (h : IsSorted table) : IsSorted (Table.insert key value table) := by
  rw [IsSorted, keys_insert]
  exact TextSet.isSorted_insert key h

theorem isSorted_addMissing {table : Table α} (bindings : Table α)
    (h : IsSorted table) : IsSorted (addMissing bindings table) := by
  induction bindings generalizing table with
  | nil => exact h
  | cons entry rest ih =>
      obtain ⟨k, v⟩ := entry
      rw [addMissing_cons]
      apply ih
      split
      · exact h
      · exact isSorted_insert k v h

theorem get?_of_mem {table : Table α} (h : IsSorted table) {key : String}
    {value : α} (hmem : (key, value) ∈ table) :
    get? table key = some value := by
  induction table with
  | nil => simp at hmem
  | cons entry rest ih =>
      obtain ⟨k, v⟩ := entry
      obtain ⟨hk, hrest⟩ := isSorted_cons.mp h
      rw [get?_cons]
      rcases List.mem_cons.mp hmem with heq | hmem
      · cases heq
        simp
      · have hlt : k < key := hk key (List.mem_map_of_mem hmem)
        rw [if_neg (String.ne_of_lt hlt).symm]
        exact ih hrest hmem

theorem keys_eq_of_mem_iff {β : Type} {left : Table α} {right : Table β}
    (hleft : IsSorted left) (hright : IsSorted right)
    (h : ∀ key, key ∈ keys left ↔ key ∈ keys right) : keys left = keys right :=
  TextSet.eq_of_mem_iff hleft hright h

theorem eq_of_mem_iff {left right : Table α} (hleft : IsSorted left) (hright : IsSorted right)
    (h : ∀ entry, entry ∈ left ↔ entry ∈ right) : left = right := by
  have : Std.Antisymm fun a b : String × α => a.1 < b.1 :=
    ⟨fun _ _ hab hba => absurd hba (String.lt_asymm hab)⟩
  have : Std.Irrefl fun a b : String × α => a.1 < b.1 :=
    ⟨fun _ => String.lt_irrefl _⟩
  exact List.Pairwise.eq_of_mem_iff (List.pairwise_map.mp hleft) (List.pairwise_map.mp hright) h

theorem eq_of_get?_eq {left right : Table α} (hleft : IsSorted left)
    (hright : IsSorted right) (h : ∀ key, get? left key = get? right key) :
    left = right := by
  refine eq_of_mem_iff hleft hright fun entry => ?_
  obtain ⟨key, value⟩ := entry
  constructor
  · intro hmem
    exact mem_of_get? ((h key).symm.trans (get?_of_mem hleft hmem))
  · intro hmem
    exact mem_of_get? ((h key).trans (get?_of_mem hright hmem))

/-! ## Tables from lists -/

theorem insert_eq_append {key : String} (value : α) {table : Table α}
    (h : ∀ other ∈ keys table, other < key) :
    Table.insert key value table = table ++ [(key, value)] := by
  induction table with
  | nil => rfl
  | cons entry rest ih =>
      obtain ⟨k, v⟩ := entry
      have hk : k < key := h k (by simp [keys])
      rw [Table.insert, if_neg (String.lt_asymm hk), if_neg (String.ne_of_lt hk).symm,
        ih fun other hother => h other (List.mem_cons_of_mem _ hother), List.cons_append]

theorem ofList_concat (table : Table α) (key : String) (value : α) :
    ofList (table ++ [(key, value)]) = Table.insert key value (ofList table) :=
  List.foldl_concat _ _ _ _

theorem ofList_of_isSorted {table : Table α} (h : IsSorted table) : ofList table = table := by
  induction table using List.reverseRecOn with
  | nil => rfl
  | append_singleton table last ih =>
      obtain ⟨key, value⟩ := last
      rw [IsSorted, keys, List.map_append, List.pairwise_append] at h
      have hlast : ∀ other ∈ keys table, other < key := fun other hother =>
        h.2.2 other hother key (by simp)
      rw [ofList_concat, ih h.1, insert_eq_append value hlast]

theorem isSorted_ofList (bindings : List (String × α)) : IsSorted (ofList bindings) := by
  induction bindings using List.reverseRecOn with
  | nil => exact isSorted_nil
  | append_singleton bindings last ih =>
      rw [ofList_concat]
      exact isSorted_insert last.1 last.2 ih

theorem get?_ofList (bindings : List (String × α)) (key : String) :
    get? (ofList bindings) key = get? bindings.reverse key := by
  induction bindings using List.reverseRecOn with
  | nil => rfl
  | append_singleton bindings last ih =>
      rw [ofList_concat, get?_insert, ih, List.reverse_concat, get?_cons]

end SchemaGo.Table
