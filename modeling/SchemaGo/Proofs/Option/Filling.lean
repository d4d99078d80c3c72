import SchemaGo.Proofs.Option.Information

/-!
# Filling values

The zero of a shape says no more than the shape, and filling a value twice
against one shape is filling it once.
-/

namespace SchemaGo

@[simp] theorem ScalarType.type_zero (type : ScalarType) :
    type.zero.type = type := by
  cases type <;> rfl

namespace OptionShape

/-! ## Zeros -/

@[simp] theorem zero_map (entries : Table OptionShape) :
    zero (.map entries) = .map (zeroEntries entries) := rfl

@[simp] theorem zero_list (item : OptionShape) : zero (.list item) = .list [] := rfl

theorem isSorted_zero {shape : OptionShape} (h : WellFormed shape) :
    (zero shape).IsSorted := by
  induction h with
  | unknown => exact .map Table.isSorted_nil (by simp)
  | leaf type => exact .scalar type.zero
  | list => exact .list (by simp)
  | map hsorted _ _ ih =>
      have hzeros := isSorted_zeroEntries hsorted
      refine .map hzeros fun entry hmem => ?_
      have hvalue := Table.get?_of_mem hzeros hmem
      rw [get?_zeroEntries] at hvalue
      obtain ⟨shape, hshape, hzero⟩ := Option.map_eq_some_iff.mp hvalue
      rw [← hzero]
      exact atKey_of_get? hshape ▸ ih entry.1

theorem below_ofValue_zero {shape : OptionShape} (h : WellFormed shape)
    (hne : shape ≠ .unknown) : Below (ofValue (zero shape)) shape := by
  induction h with
  | unknown => exact absurd rfl hne
  | leaf type =>
      rw [zero, ofValue_scalar, ScalarType.type_zero]
      exact .leaf type
  | list => exact .list (.unknown _)
  | @map entries _ hknown _ ih =>
      rw [zero_map, ofValue_map]
      refine .map fun key => ?_
      cases hkey : Table.get? entries key with
      | none =>
          rw [atKey_ofEntries_of_none (by rw [get?_zeroEntries, hkey]; rfl)]
          exact .unknown _
      | some shape =>
          have hshape : shape ≠ .unknown := fun h => hknown key (h ▸ hkey)
          rw [atKey_ofEntries_of_get? (by rw [get?_zeroEntries, hkey]; rfl)]
          have hbelow := ih key
          rw [atKey_of_get? hkey] at hbelow ⊢
          exact hbelow hshape

/-! ## Filling -/

@[simp] theorem fill_map_map (shapes : Table OptionShape) (entries : OptionMap) :
    fill (.map shapes) (.map entries) = .map (fillEntries shapes entries) := rfl

@[simp] theorem fill_list_list (item : OptionShape) (items : List OptionValue) :
    fill (.list item) (.list items) = .list (items.map (fill item)) := rfl

@[simp] theorem fill_scalar (shape : OptionShape) (scalar : Scalar) :
    fill shape (.scalar scalar) = .scalar scalar := by
  cases shape <;> rfl

/-- What filling leaves at a key: a value of the shape's if the shape has the
key, and what was there before otherwise. -/
theorem get?_fillEntries_cases {shapes : Table OptionShape}
    (hsorted : Table.IsSorted shapes) {entries : OptionMap} {key : String}
    {value : OptionValue}
    (h : Table.get? (fillEntries shapes entries) key = some value) :
    (∃ shape, Table.get? shapes key = some shape ∧
      value = fillAt shape (Table.get? entries key)) ∨
    (Table.get? shapes key = none ∧ Table.get? entries key = some value) := by
  cases hshape : Table.get? shapes key with
  | none =>
      rw [get?_fillEntries_of_none hshape] at h
      exact .inr ⟨rfl, h⟩
  | some shape =>
      rw [get?_fillEntries_of_some hsorted hshape] at h
      exact .inl ⟨shape, rfl, (Option.some.inj h).symm⟩

theorem isSorted_fill {shape : OptionShape} {value : OptionValue}
    (hshape : WellFormed shape) (hvalue : value.IsSorted) :
    (fill shape value).IsSorted := by
  induction hvalue generalizing shape with
  | scalar scalar =>
      rw [fill_scalar]
      exact .scalar scalar
  | list hitems ih =>
      cases hshape with
      | list hitem =>
          refine .list fun item hmem => ?_
          obtain ⟨original, horiginal, rfl⟩ := List.mem_map.mp hmem
          exact ih original horiginal hitem
      | _ => exact .list hitems
  | @map entries hsorted hparts ih =>
      cases hshape with
      | @map shapes hshapes _ hshapeParts =>
          have hfilled := isSorted_fillEntries shapes hsorted
          refine .map hfilled fun entry hmem => ?_
          rcases get?_fillEntries_cases hshapes (Table.get?_of_mem hfilled hmem) with
            ⟨shape, hkey, hvalue⟩ | ⟨-, hkey⟩
          · have hwell := atKey_of_get? hkey ▸ hshapeParts entry.1
            rw [hvalue]
            cases hentry : Table.get? entries entry.1 with
            | none => exact isSorted_zero hwell
            | some value => exact ih _ (Table.mem_of_get? hentry) hwell
          · exact hparts _ (Table.mem_of_get? hkey)
      | _ => exact .map hsorted hparts

theorem fill_zero {shape : OptionShape} (h : WellFormed shape) :
    fill shape (zero shape) = zero shape := by
  induction h with
  | unknown => rfl
  | leaf type => rfl
  | list => rfl
  | @map entries hsorted _ _ ih =>
      rw [zero_map, fill_map_map]
      congr 1
      refine Table.eq_of_get?_eq
        (isSorted_fillEntries _ (isSorted_zeroEntries hsorted))
        (isSorted_zeroEntries hsorted) fun key => ?_
      have hzero := get?_zeroEntries entries key
      cases hkey : Table.get? entries key with
      | none => exact get?_fillEntries_of_none hkey _
      | some shape =>
          rw [hkey, Option.map_some] at hzero
          rw [get?_fillEntries_of_some hsorted hkey, hzero, fillAt]
          exact congrArg some (atKey_of_get? hkey ▸ ih key)

theorem fill_fill {shape : OptionShape} {value : OptionValue}
    (hshape : WellFormed shape) (hvalue : value.IsSorted) :
    fill shape (fill shape value) = fill shape value := by
  induction hvalue generalizing shape with
  | scalar scalar => simp
  | list hitems ih =>
      cases hshape with
      | list hitem =>
          simp only [fill_list_list, List.map_map, OptionValue.list.injEq]
          exact List.map_congr_left fun item hmem => ih item hmem hitem
      | _ => rfl
  | @map entries hsorted hparts ih =>
      cases hshape with
      | @map shapes hshapes _ hshapeParts =>
          have hfilled := isSorted_fillEntries shapes hsorted
          simp only [fill_map_map, OptionValue.map.injEq]
          refine Table.eq_of_get?_eq (isSorted_fillEntries shapes hfilled)
            hfilled fun key => ?_
          cases hkey : Table.get? shapes key with
          | none => exact get?_fillEntries_of_none hkey _
          | some shape =>
              have hwell := atKey_of_get? hkey ▸ hshapeParts key
              rw [get?_fillEntries_of_some hshapes hkey,
                get?_fillEntries_of_some hshapes hkey]
              congr 1
              cases hentry : Table.get? entries key with
              | none => exact fill_zero hwell
              | some value => exact ih _ (Table.mem_of_get? hentry) hwell
      | _ => rfl

end OptionShape

end SchemaGo
