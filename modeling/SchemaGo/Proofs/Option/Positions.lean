import SchemaGo.Proofs.Option.Union

/-!
# Normal rpcs position by position

A position leads into a value through the keys of maps and the indices of lists,
and into a shape likewise, where every index leads to the item shape.  Filling
keeps what it finds at a position, and what it adds anywhere is the zero of the
shape that is there.
-/

namespace SchemaGo

/-! ## Positions -/

inductive OptionTurn where
  | key (name : String)
  | index (position : Nat)
deriving DecidableEq, Repr

namespace OptionValue

def part? : OptionValue → OptionTurn → Option OptionValue
  | .map entries, .key name => Table.get? entries name
  | .list items, .index position => items[position]?
  | _, _ => none

@[simp] theorem part?_map_key (entries : OptionMap) (name : String) :
    part? (.map entries) (.key name) = Table.get? entries name := rfl

@[simp] theorem part?_list_index (items : List OptionValue) (position : Nat) :
    part? (.list items) (.index position) = items[position]? := rfl

def at? (value : OptionValue) : List OptionTurn → Option OptionValue
  | [] => some value
  | turn :: rest => (value.part? turn).bind fun part => part.at? rest

/-- The same scalar, a list of the same length, or a map with at least the same keys. -/
inductive KeptBy : OptionValue → OptionValue → Prop
  | scalar (scalar : Scalar) : KeptBy (.scalar scalar) (.scalar scalar)
  | list {items others : List OptionValue} (hlength : others.length = items.length) :
      KeptBy (.list items) (.list others)
  | map {entries others : OptionMap}
      (hkeys : ∀ key ∈ Table.keys entries, key ∈ Table.keys others) :
      KeptBy (.map entries) (.map others)

theorem KeptBy.refl (value : OptionValue) : value.KeptBy value := by
  cases value with
  | scalar scalar => exact .scalar scalar
  | list items => exact .list rfl
  | map entries => exact .map fun _ hkey => hkey

end OptionValue

namespace OptionShape

def part? : OptionShape → OptionTurn → Option OptionShape
  | .map entries, .key name => Table.get? entries name
  | .list item, .index _ => some item
  | _, _ => none

@[simp] theorem part?_map_key (entries : Table OptionShape) (name : String) :
    part? (.map entries) (.key name) = Table.get? entries name := rfl

def at? (shape : OptionShape) : List OptionTurn → Option OptionShape
  | [] => some shape
  | turn :: rest => (shape.part? turn).bind fun part => part.at? rest

theorem WellFormed.part? {shape part : OptionShape} {turn : OptionTurn} (h : WellFormed shape)
    (hpart : shape.part? turn = some part) : WellFormed part := by
  cases h with
  | map _ _ hparts =>
      cases turn with
      | key name => exact atKey_of_get? hpart ▸ hparts name
      | index position => cases hpart
  | list hitem =>
      cases turn with
      | key name => cases hpart
      | index position => exact Option.some.inj hpart ▸ hitem
  | unknown | leaf => cases turn <;> cases hpart

theorem WellFormed.at? {shape inner : OptionShape} {path : List OptionTurn}
    (h : WellFormed shape) (hinner : shape.at? path = some inner) : WellFormed inner := by
  induction path generalizing shape with
  | nil => exact Option.some.inj hinner ▸ h
  | cons turn rest ih =>
      obtain ⟨part, hpart, hinner⟩ := Option.bind_eq_some_iff.mp hinner
      exact ih (h.part? hpart) hinner

/-! ## One turn -/

def fillBy : Option OptionShape → OptionValue → OptionValue
  | some shape, value => fill shape value
  | none, value => value

theorem isSome_get?_fillEntries {shapes : Table OptionShape} (hsorted : Table.IsSorted shapes)
    {entries : OptionMap} {key : String} (h : (Table.get? entries key).isSome) :
    (Table.get? (fillEntries shapes entries) key).isSome := by
  cases hshape : Table.get? shapes key with
  | some shape =>
      rw [get?_fillEntries_of_some hsorted hshape]
      rfl
  | none =>
      rw [get?_fillEntries_of_none hshape]
      exact h

theorem keptBy_fill {shape : OptionShape} (hshape : WellFormed shape) (value : OptionValue) :
    value.KeptBy (fill shape value) := by
  cases value with
  | scalar scalar =>
      rw [fill_scalar]
      exact .scalar scalar
  | list items =>
      cases shape with
      | list item =>
          rw [fill_list_list]
          exact .list (List.length_map _)
      | _ => exact .refl _
  | map entries =>
      cases hshape with
      | map hsorted =>
          rw [fill_map_map]
          refine .map fun key hkey => ?_
          rw [Table.mem_keys_iff] at hkey ⊢
          exact isSome_get?_fillEntries hsorted hkey
      | _ => exact .refl _

theorem part?_zero {shape : OptionShape} {turn : OptionTurn} {part : OptionValue}
    (h : (zero shape).part? turn = some part) :
    ∃ inner, shape.part? turn = some inner ∧ part = zero inner := by
  cases shape with
  | map entries =>
      cases turn with
      | key name =>
          rw [zero_map, OptionValue.part?_map_key, get?_zeroEntries] at h
          obtain ⟨inner, hinner, heq⟩ := Option.map_eq_some_iff.mp h
          exact ⟨inner, hinner, heq.symm⟩
      | index position => cases h
  | leaf _ | list _ | unknown => cases turn <;> simp [zero, OptionValue.part?] at h

theorem part?_fill_of_some {shape : OptionShape} (hshape : WellFormed shape)
    {value part : OptionValue} {turn : OptionTurn} (h : value.part? turn = some part) :
    (fill shape value).part? turn = some (fillBy (shape.part? turn) part) := by
  cases value with
  | scalar scalar => cases turn <;> cases h
  | list items =>
      cases turn with
      | key name => cases h
      | index position =>
          rw [OptionValue.part?_list_index] at h
          cases shape with
          | list item =>
              rw [fill_list_list, OptionValue.part?_list_index, List.getElem?_map, h]
              rfl
          | _ => exact h
  | map entries =>
      cases turn with
      | index position => cases h
      | key name =>
          rw [OptionValue.part?_map_key] at h
          cases hshape with
          | @map shapes hsorted =>
              rw [fill_map_map, OptionValue.part?_map_key, part?_map_key]
              cases hinner : Table.get? shapes name with
              | some inner =>
                  rw [get?_fillEntries_of_some hsorted hinner, h]
                  rfl
              | none =>
                  rw [get?_fillEntries_of_none hinner, h]
                  rfl
          | _ => exact h

theorem part?_fill_of_none {shape : OptionShape} (hshape : WellFormed shape)
    {value part : OptionValue} {turn : OptionTurn} (h : value.part? turn = none)
    (hfill : (fill shape value).part? turn = some part) :
    ∃ inner, shape.part? turn = some inner ∧ part = zero inner := by
  cases value with
  | scalar scalar =>
      rw [fill_scalar, h] at hfill
      cases hfill
  | list items =>
      cases shape with
      | list item =>
          cases turn with
          | key name => cases hfill
          | index position =>
              rw [OptionValue.part?_list_index] at h
              rw [fill_list_list, OptionValue.part?_list_index, List.getElem?_map, h] at hfill
              cases hfill
      | _ => exact absurd (h.symm.trans hfill) (by simp)
  | map entries =>
      cases hshape with
      | map hsorted =>
          cases turn with
          | index position => cases hfill
          | key name =>
              rw [OptionValue.part?_map_key] at h
              rw [fill_map_map, OptionValue.part?_map_key] at hfill
              rcases get?_fillEntries_cases hsorted hfill with
                ⟨inner, hinner, rfl⟩ | ⟨-, hentry⟩
              · exact ⟨inner, hinner, by rw [h]; rfl⟩
              · rw [h] at hentry
                cases hentry
      | _ => exact absurd (h.symm.trans hfill) (by simp)

/-! ## Whole positions -/

theorem at?_fill {shape : OptionShape} (hshape : WellFormed shape) {value inner : OptionValue}
    {path : List OptionTurn} (h : value.at? path = some inner) :
    (fill shape value).at? path = some (fillBy (shape.at? path) inner) := by
  induction path generalizing shape value with
  | nil =>
      cases h
      rfl
  | cons turn rest ih =>
      obtain ⟨part, hpart, h⟩ := Option.bind_eq_some_iff.mp h
      rw [OptionValue.at?, part?_fill_of_some hshape hpart, Option.bind_some, OptionShape.at?]
      cases hinner : shape.part? turn with
      | some innerShape => exact ih (hshape.part? hinner) h
      | none => exact h

theorem at?_zero {shape : OptionShape} {path : List OptionTurn} {inner : OptionValue}
    (h : (zero shape).at? path = some inner) :
    ∃ innerShape, shape.at? path = some innerShape ∧ inner = zero innerShape := by
  induction path generalizing shape with
  | nil => exact ⟨shape, rfl, (Option.some.inj h).symm⟩
  | cons turn rest ih =>
      obtain ⟨part, hpart, h⟩ := Option.bind_eq_some_iff.mp h
      obtain ⟨partShape, hpartShape, rfl⟩ := part?_zero hpart
      rw [OptionShape.at?, hpartShape]
      exact ih h

theorem at?_fill_of_none {shape : OptionShape} (hshape : WellFormed shape)
    {value inner : OptionValue} {path : List OptionTurn} (h : value.at? path = none)
    (hfill : (fill shape value).at? path = some inner) :
    ∃ innerShape, shape.at? path = some innerShape ∧ inner = zero innerShape := by
  induction path generalizing shape value with
  | nil => cases h
  | cons turn rest ih =>
      obtain ⟨part, hpart, hfill⟩ := Option.bind_eq_some_iff.mp hfill
      rw [OptionShape.at?]
      cases hvalue : value.part? turn with
      | none =>
          obtain ⟨partShape, hpartShape, rfl⟩ := part?_fill_of_none hshape hvalue hpart
          rw [hpartShape]
          exact at?_zero hfill
      | some original =>
          rw [part?_fill_of_some hshape hvalue] at hpart
          rw [OptionValue.at?, hvalue, Option.bind_some] at h
          cases hinner : shape.part? turn with
          | none =>
              rw [hinner] at hpart
              cases hpart
              rw [fillBy, h] at hfill
              cases hfill
          | some partShape =>
              rw [hinner] at hpart
              cases hpart
              exact ih (hshape.part? hinner) h hfill

end OptionShape

/-! ## Normal services -/

open OptionShape

/-- One rpc before and after its service is made normal: every position keeps what it has, every
other one that is there afterwards has the zero of the union, and nothing but options changes. -/
structure Ast.Rpc.FilledBy (union : OptionShape) (rpc normal : Ast.Rpc) : Prop where
  kept : ∀ path value, OptionValue.at? (.map rpc.options) path = some value →
    ∃ value', OptionValue.at? (.map normal.options) path = some value' ∧ value.KeptBy value'
  added : ∀ path value', OptionValue.at? (.map normal.options) path = some value' →
    OptionValue.at? (.map rpc.options) path = none →
    ∃ shape, union.at? path = some shape ∧ value' = shape.zero
  others : normal = { rpc with options := normal.options }

theorem Ast.Rpc.filledBy_fillRpc {union : Table OptionShape} (hunion : WellFormed (.map union))
    (rpc : Ast.Rpc) : rpc.FilledBy (.map union) (fillRpc union rpc) := by
  constructor
  · intro path value hvalue
    refine ⟨_, at?_fill hunion hvalue, ?_⟩
    cases hshape : OptionShape.at? (.map union) path with
    | some shape => exact keptBy_fill (hunion.at? hshape) value
    | none => exact .refl value
  · intro path value' hvalue' hvalue
    exact at?_fill_of_none hunion hvalue hvalue'
  · rfl

theorem filledBy_normalizeService {service : Ast.Service}
    (hsorted : ∀ rpc ∈ service.rpcs, OptionValue.IsSorted (.map rpc.options)) :
    List.Forall₂ (Ast.Rpc.FilledBy (.map (unionShapes service.rpcs))) service.rpcs
      (normalizeService service).rpcs := by
  have hrpcs : (normalizeService service).rpcs =
      service.rpcs.map (fillRpc (unionShapes service.rpcs)) := rfl
  rw [hrpcs, List.forall₂_map_right_iff, List.forall₂_same]
  exact fun rpc _ => rpc.filledBy_fillRpc (wellFormed_unionShapes hsorted)

/-- Making a service normal adds zeros to the options of its rpcs and sets one option of its own;
everything else stays, in order. -/
theorem normalizeService_only_adds_zeros (service : Ast.Service)
    (hsorted : ∀ rpc ∈ service.rpcs, OptionValue.IsSorted (.map rpc.options)) :
    List.Forall₂ (Ast.Rpc.FilledBy (.map (unionShapes service.rpcs))) service.rpcs
      (normalizeService service).rpcs ∧
    (∀ key, key ≠ rpcOptionsKey →
      Table.get? (normalizeService service).options key = Table.get? service.options key) ∧
    normalizeService service = { service with
      rpcs := (normalizeService service).rpcs
      options := (normalizeService service).options } := by
  refine ⟨filledBy_normalizeService hsorted, fun key hkey => ?_, rfl⟩
  have hoptions : (normalizeService service).options = Table.insert rpcOptionsKey
      (OptionShape.map (unionShapes service.rpcs)).describe service.options := rfl
  rw [hoptions, Table.get?_insert, if_neg hkey]

theorem normalizeService_only_adds_zeros_clashing :
    ∃ rpc ∈ clashingService.rpcs, ∃ normal ∈ (normalizeService clashingService).rpcs,
      rpc.FilledBy (.map (unionShapes clashingService.rpcs)) normal ∧
      OptionValue.at? (.map rpc.options) [.key "Rules", .index 0, .key "A"] = none ∧
      OptionValue.at? (.map normal.options) [.key "Rules", .index 0, .key "A"] =
        some (.scalar (.int 0)) := by
  have hfilled := (normalizeService_only_adds_zeros clashingService clashingService_isSorted).1
  have hsecond := hfilled.get (i := 1) (by decide) (by decide)
  exact ⟨_, List.get_mem _ _, _, List.get_mem _ _, hsecond, rfl, rfl⟩

end SchemaGo
