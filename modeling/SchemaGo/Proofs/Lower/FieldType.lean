import SchemaGo.Proofs.Go.FieldCode
import SchemaGo.Proofs.Lower.FieldTag

/-!
# Types of lowered fields

The kind, the type and the wire kind of a field are found separately, and the code for the field
relies on all three.  Lowering keeps them in step, but for a repeated group: it is a list by its
kind, while its type stands for any value.
-/

namespace SchemaGo

def Schema.Field.IsGroupList (field : Schema.Field) : Prop :=
  field.isRepeated ∧ ∃ type, field.type = .single (.group type)

namespace Lower

/-! ## Forms of types -/

def star : Schema.ElementType → String
  | .message _ => "*"
  | _ => ""

theorem decorate_single (type : Schema.ElementType) :
    Go.decorate (baseType type) (Schema.Field.elementKind type) false false =
      star type ++ baseType type := by
  cases type with
  | scalar kind => cases kind <;> rfl
  | enum | message | group => simp [star, Go.decorate, Schema.Field.elementKind]

theorem decorate_value (type : Schema.ElementType) (optional : Bool)
    (h : ∀ message, type ≠ .message message) :
    Go.decorate (baseType type) (Schema.Field.elementKind type) optional false = baseType type ∨
      Go.decorate (baseType type) (Schema.Field.elementKind type) optional false =
        "*" ++ baseType type := by
  cases type with
  | message type => exact absurd rfl (h type)
  | scalar kind => cases kind <;> cases optional <;> simp [Go.decorate, Schema.Field.elementKind]
  | enum | group => cases optional <;> simp [Go.decorate, Schema.Field.elementKind]

end Lower

namespace Lowering

variable {ctx : Context} {path : SourcePath} {oneofs : List Schema.Oneof}
  {declared : Schema.Field} {lowered : Ast.Field}

def TypeAgrees (declared : Schema.Field) (lowered : Ast.Field) : Prop :=
  match lowered.kind with
  | .list =>
    lowered.type = "[]" ++ lowered.baseType ∨ lowered.type = "[]*" ++ lowered.baseType ∨
      declared.IsGroupList ∧ lowered.type = Go.anyType
  | .map => ∃ entry, declared.type = .map entry ∧
    lowered.keyBaseType = Lower.baseType entry.key.type ∧
    lowered.indexBaseType = Lower.baseType entry.value.type ∧
    lowered.type = "map[" ++ lowered.keyBaseType ++ "]" ++
      (Lower.star entry.value.type ++ lowered.indexBaseType)
  | .struct => lowered.type = "*" ++ lowered.baseType
  | .scalar => lowered.type = lowered.baseType ∨ lowered.type = "*" ++ lowered.baseType

/-- The code for a field is made of statements that are legal at the type of the field. -/
structure CodeAgrees (emitter : Go.Emitter) (field : Ast.Field) : Prop where
  encode : emitter.encodeBody field = (Go.encodeCode emitter field).flatMap (·.lines field) ∧
    ∀ statement ∈ Go.encodeCode emitter field, statement.Legal field
  decode : emitter.decodeBody field = (Go.decodeCode emitter field).flatMap (·.lines field) ∧
    ∀ statement ∈ Go.decodeCode emitter field, statement.Legal field
  zero : Go.Emitter.zeroBody field = (Go.zeroCode field).flatMap (·.lines field) ∧
    ∀ statement ∈ Go.zeroCode field, statement.Legal field

theorem CodeAgrees.of_fits (emitter : Go.Emitter) {field : Ast.Field} (hfits : Go.Fits field) :
    CodeAgrees emitter field where
  encode := ⟨Go.encodeBody_eq_lines emitter field, Go.legal_encodeCode emitter hfits⟩
  decode := ⟨Go.decodeBody_eq_lines emitter field, Go.legal_decodeCode emitter hfits⟩
  zero := ⟨Go.zeroBody_eq_lines field, Go.legal_zeroCode hfits⟩

theorem kind_of_wireField {pool : Schema.Pool} {field : Schema.BareField} {wire : WireField}
    (h : Lower.wireField pool field = .ok wire) : wire.kind = field.wire := by
  rw [Lower.wireField] at h
  split at h
  · cases h
  · cases h
    rfl

theorem Yields.goType_of_field (h : Yields (field ctx path oneofs declared) lowered) :
    lowered.type = (Lower.goType declared).full ∧
      lowered.baseType = (Lower.goType declared).base ∧
      lowered.keyBaseType = (Lower.goType declared).keyBase ∧
      lowered.indexBaseType = (Lower.goType declared).valueBase ∧
      lowered.kind = (Lower.goType declared).kind ∧ lowered.wire = declared.wire := by
  obtain ⟨wire, structTag, fieldOptions, hwire, -, -, rfl⟩ := h.of_field
  exact ⟨rfl, rfl, rfl, rfl, rfl, kind_of_wireField hwire⟩

theorem typeAgrees_of_field (h : Yields (field ctx path oneofs declared) lowered) :
    TypeAgrees declared lowered := by
  obtain ⟨htype, hbase, hkeyBase, hvalueBase, hkind, -⟩ := h.goType_of_field
  rw [Lower.goType] at htype hbase hkeyBase hvalueBase hkind
  rw [TypeAgrees]
  cases hdeclared : declared.type with
  | map entry =>
      simp only [hdeclared, Lower.mapType] at htype hkeyBase hvalueBase hkind
      rw [hkind]
      refine ⟨entry, rfl, hkeyBase, hvalueBase, ?_⟩
      rw [htype, hkeyBase, hvalueBase, Lower.decorate_single]
  | single element =>
      simp only [hdeclared, Lower.plainType] at htype hbase hkind
      cases hrepeated : declared.isRepeated with
      | true =>
          rw [hrepeated] at htype hkind
          rw [hkind]
          cases element with
          | group name => exact .inr (.inr ⟨⟨hrepeated, name, hdeclared⟩, htype⟩)
          | message name => exact .inr (.inl (by rw [htype, hbase]; rfl))
          | scalar scalar => exact .inl (by rw [htype, hbase]; cases scalar <;> rfl)
          | enum name => exact .inl (by rw [htype, hbase]; rfl)
      | false =>
          rw [hrepeated] at htype hkind
          rw [hkind]
          cases element with
          | message name => exact htype.trans (by rw [hbase]; rfl)
          | scalar | enum | group =>
              change lowered.type = lowered.baseType ∨ lowered.type = "*" ++ lowered.baseType
              rw [htype, hbase]
              exact Lower.decorate_value _ _ (by simp)

theorem scalar_type_of_field (h : Yields (field ctx path oneofs declared) lowered)
    (hkind : lowered.kind = .scalar) :
    (lowered.wire = .group → lowered.type = Go.anyType) ∧
      ∀ scalar, lowered.wire = .scalar scalar → lowered.baseType = Go.scalarBase scalar := by
  obtain ⟨htype, hbase, -, -, hgoKind, hwire⟩ := h.goType_of_field
  rw [hkind] at hgoKind
  rw [Lower.goType] at htype hbase hgoKind
  rw [hwire, Schema.Field.wire, Schema.FieldType.element.eq_def]
  cases hdeclared : declared.type with
  | map entry => simp [hdeclared, Lower.mapType] at hgoKind
  | single element =>
      simp only [hdeclared, Lower.plainType] at htype hbase
      cases element with
      | group name => exact ⟨fun _ => htype, fun _ => nofun⟩
      | scalar kind =>
          refine ⟨nofun, ?_⟩
          rintro scalar ⟨⟩
          exact hbase
      | enum | message => exact ⟨nofun, fun _ => nofun⟩

theorem fits_of_field (h : Yields (field ctx path oneofs declared) lowered)
    (hsingle : ¬ declared.IsGroupList) : Go.Fits lowered := by
  have hagrees := typeAgrees_of_field h
  rw [TypeAgrees] at hagrees
  rw [Go.Fits]
  cases hkind : lowered.kind with
  | list =>
      simp only [hkind] at hagrees
      rcases hagrees with hslice | hslice | ⟨hgroup, -⟩
      · exact ⟨_, hslice⟩
      · exact ⟨"*" ++ lowered.baseType, by rw [hslice, ← String.append_assoc]; rfl⟩
      · exact absurd hgroup hsingle
  | map =>
      simp only [hkind] at hagrees
      obtain ⟨entry, -, -, -, htype⟩ := hagrees
      exact ⟨_, _, htype⟩
  | struct =>
      simp only [hkind] at hagrees
      exact ⟨_, hagrees⟩
  | scalar =>
      simp only [hkind] at hagrees
      obtain ⟨hgroup, hbase⟩ := scalar_type_of_field h hkind
      refine ⟨fun hwire => .inl (hgroup hwire), fun hwire => ?_⟩
      rcases hagrees with htype | hpointer
      · refine .inr ?_
        rcases hwire with hstring | hbytes
        · exact .inr (.inr (htype.trans (hbase _ hstring)))
        · exact .inl ⟨"byte", htype.trans (hbase _ hbytes)⟩
      · exact .inl ⟨_, hpointer⟩

/-- The type of a lowered field has the form that the kind says, and the code for the field applies
the operations of Go only to what has them.  The type of a repeated group is no slice, and nothing
is said about the code for it. -/
theorem field_type_agrees_with_code (h : Yields (field ctx path oneofs declared) lowered) :
    TypeAgrees declared lowered ∧
      (¬declared.IsGroupList → ∀ emitter, CodeAgrees emitter lowered) :=
  ⟨typeAgrees_of_field h, fun hsingle emitter => .of_fits emitter (fits_of_field h hsingle)⟩

def plainField (name : String) (type : Schema.FieldType) : Schema.Field where
  name
  fullName := "M." ++ name
  jsonName := name
  number := 1
  cardinality := .repeated
  type
  dialect := .proto2
  oneof := none
  defaultText := none
  proto3Optional := false
  options := none

def plainAction (name : String) (type : Schema.FieldType) : Lowering Ast.Field :=
  field ⟨⟨.ofLocations [], "", .empty []⟩, ⟨[]⟩, 0⟩ [] [] (plainField name type)

def entryPart (name : String) (number : Nat) (type : Schema.ElementType) : Schema.BareField where
  name
  jsonName := name
  number
  cardinality := .optional
  type
  dialect := .proto2
  oneof := none
  defaultText := none

def countsType : Schema.FieldType :=
  .map ⟨⟨"CountsEntry", "M.CountsEntry", "m.proto"⟩, false,
    entryPart "key" 1 (.scalar .string), entryPart "value" 2 (.message ⟨"N", "N", "m.proto"⟩)⟩

def partsType : Schema.FieldType := .single (.group ⟨"Parts", "M.Parts", "m.proto"⟩)

theorem field_type_agrees_with_code_map :
    ∃ lowered, Yields (plainAction "counts" countsType) lowered ∧
      lowered.type = "map[string]*N" ∧ TypeAgrees (plainField "counts" countsType) lowered ∧
      ∀ emitter, CodeAgrees emitter lowered := by
  obtain ⟨lowered, hyields, htype⟩ := exists_yields_of_map (plainAction "counts" countsType)
    (·.type) "map[string]*N" (by decide +kernel)
  obtain ⟨htypeAgrees, hcodeAgrees⟩ := field_type_agrees_with_code hyields
  refine ⟨lowered, hyields, htype, htypeAgrees, hcodeAgrees ?_⟩
  rintro ⟨-, group, ⟨⟩⟩

/-- The type of a repeated group is no slice, and a map is compared with `nil`. -/
theorem list_without_slice_and_map_with_nil :
    (∃ lowered, Yields (plainAction "parts" partsType) lowered ∧ lowered.kind = .list ∧
      lowered.type ≠ "[]" ++ lowered.baseType ∧ lowered.type ≠ "[]*" ++ lowered.baseType) ∧
    ∃ lowered, Yields (plainAction "counts" countsType) lowered ∧
      ¬(Go.IsPointer lowered.type ∨ Go.IsInterface lowered.type ∨ Go.IsSlice lowered.type) ∧
      ∀ emitter : Go.Emitter, "if x.Counts == nil \x7b" ∈ emitter.decodeBody lowered := by
  constructor
  · obtain ⟨lowered, hyields, hseen⟩ := exists_yields_of_map (plainAction "parts" partsType)
      (fun lowered => (lowered.kind, lowered.type, lowered.baseType))
      (.list, Go.anyType, Go.anyType) (by decide +kernel)
    simp only [Prod.mk.injEq] at hseen
    obtain ⟨hkind, htype, hbase⟩ := hseen
    refine ⟨lowered, hyields, hkind, ?_, ?_⟩
    · rw [htype, hbase]
      decide
    · rw [htype, hbase]
      decide
  · obtain ⟨lowered, hyields, hseen⟩ := exists_yields_of_map (plainAction "counts" countsType)
      (fun lowered => (lowered.kind, lowered.type, lowered.name))
      (.map, "map[string]*N", "Counts") (by decide +kernel)
    simp only [Prod.mk.injEq] at hseen
    obtain ⟨hkind, htype, hname⟩ := hseen
    refine ⟨lowered, hyields, ?_, fun emitter => ?_⟩
    · rw [htype]
      rintro (⟨base, hpointer⟩ | hinterface | ⟨element, hslice⟩)
      · simp [← String.toList_inj] at hpointer
      · revert hinterface
        rw [Go.IsInterface]
        decide
      · simp [← String.toList_inj] at hslice
    · simp [Go.Emitter.decodeBody, hkind, Go.fieldTarget, hname, Go.block]

end Lowering

end SchemaGo
