import SchemaGo.Proofs.Go.Exported
import SchemaGo.Proofs.Lower.Flattening
import SchemaGo.Proofs.Lower.Lookup

/-!
# The fields of a struct

A lowered message has its fields under their exported names, in the order of their
numbers.  Linking keeps the names of fields apart by more than case and underscores.
The exported names are then distinct as well, unless an underscore in front of one name
meets the letter that it is written as in another.
-/

namespace SchemaGo.Lowering

open Schema Go

variable {ctx : Context} {path : SourcePath}

def structNames (declared : Schema.Message) : List String :=
  declared.info.fields.map fun field => fieldName field.name

theorem Yields.name_of_field {oneofs : List Schema.Oneof} {declared : Schema.Field}
    {lowered : Ast.Field} (h : Yields (field ctx path oneofs declared) lowered) :
    lowered.name = fieldName declared.name := by
  obtain ⟨wire, structTag, fieldOptions, -, -, -, rfl⟩ := h.of_field
  rfl

theorem Yields.map_name_of_message {declared : Schema.Message} {lowered : Ast.Message}
    (h : Yields (message ctx path declared) lowered) :
    (lowered.fields.map (·.name)).Perm (structNames declared) := by
  obtain ⟨hfields, -⟩ := h.of_message
  have hnames : (placed path 2 0 declared.info.fieldsByNumber).map
      (fun entry => fieldName entry.2.name) = lowered.fields.map (·.name) :=
    map_eq_map_of_forall₂ hfields fun _ _ hfield => hfield.name_of_field.symm
  have hplaced : (placed path 2 0 declared.info.fieldsByNumber).map
      (fun entry => fieldName entry.2.name) =
        declared.info.fieldsByNumber.map fun field => fieldName field.name := by
    conv_rhs => rw [← map_snd_placed path 2 0 declared.info.fieldsByNumber]
    rw [List.map_map]
    rfl
  rw [← hnames, hplaced]
  exact (fieldsByNumber_perm declared.info).map _

/-- Where linking keeps the names of the fields apart, the names in the struct are distinct if and
only if no underscore in front meets the letter that it is exported to; two fields that meet differ
by that letter alone.  No field has the name of a method. -/
theorem structNames_nodup_iff (declared : Schema.Message)
    (hidentifiers : ∀ field ∈ declared.info.fields, isIdentifier field.name)
    (hflat : (declared.info.fields.map fun field => flatName field.name).Nodup) :
    ((structNames declared).Nodup ↔ ∀ field ∈ declared.info.fields,
      ∀ other ∈ declared.info.fields, ¬MeetsAtX field.name other.name) ∧
    (∀ field ∈ declared.info.fields, ∀ other ∈ declared.info.fields,
      MeetsAtX field.name other.name → flatName other.name = "x" ++ flatName field.name) ∧
    (∀ name ∈ structNames declared, name ∉ messageMethods) ∧
    ∀ ctx path lowered, Yields (message ctx path declared) lowered →
      (lowered.fields.map (·.name)).Perm (structNames declared) := by
  refine ⟨⟨?_, ?_⟩, ?_, ?_, fun _ _ _ h => h.map_name_of_message⟩
  · intro hnodup field hfield other hother hmeets
    cases List.inj_on_of_nodup_map hnodup hfield hother hmeets.fieldName_eq
    obtain ⟨rest, others, hunderscore, hletter, -⟩ := hmeets
    rcases hletter with hletter | hletter <;> simp [hunderscore] at hletter
  · intro hapart
    refine List.pairwise_map.mpr ?_
    refine (List.pairwise_map.mp hflat).imp_of_mem fun hfield hother hne heq => ?_
    rcases flatName_eq_or_meetsAtX (hidentifiers _ hfield) (hidentifiers _ hother) heq with
      hsame | hmeets | hmeets
    · exact hne hsame
    · exact hapart _ hfield _ hother hmeets
    · exact hapart _ hother _ hfield hmeets
  · exact fun field hfield other hother hmeets =>
      hmeets.flatName_eq (hidentifiers field hfield) (hidentifiers other hother)
  · intro name hname
    obtain ⟨field, -, rfl⟩ := List.mem_map.mp hname
    exact fieldName_not_mem_messageMethods field.name

def namedMessage (names : List String) : Schema.Message :=
  sampleMessage "M" "M"
    (names.zipIdx.map fun (name, index) =>
      sampleField name (index + 1) .optional (.single (.scalar .int32))) [] []

/-- The first two names are read alike but for the letter, and they do not meet: the letter starts
no new word, as the underscore does.  The last field steps aside for a method. -/
theorem structNames_nodup_iff_apart :
    (∀ field ∈ (namedMessage ["_hidden", "xhidden", "type"]).info.fields,
      isIdentifier field.name) ∧
    ((namedMessage ["_hidden", "xhidden", "type"]).info.fields.map
      fun field => flatName field.name).Nodup ∧
    structNames (namedMessage ["_hidden", "xhidden", "type"]) = ["XHidden", "Xhidden", "Type_"] ∧
    ∀ field ∈ (namedMessage ["_hidden", "xhidden", "type"]).info.fields,
      ∀ other ∈ (namedMessage ["_hidden", "xhidden", "type"]).info.fields,
        ¬MeetsAtX field.name other.name := by
  have hidentifiers : ∀ field ∈ (namedMessage ["_hidden", "xhidden", "type"]).info.fields,
      isIdentifier field.name := by decide +kernel
  have hflat : ((namedMessage ["_hidden", "xhidden", "type"]).info.fields.map
      fun field => flatName field.name).Nodup := by decide +kernel
  have hnames : structNames (namedMessage ["_hidden", "xhidden", "type"]) =
      ["XHidden", "Xhidden", "Type_"] := by decide +kernel
  refine ⟨hidentifiers, hflat, hnames, ?_⟩
  exact (structNames_nodup_iff _ hidentifiers hflat).1.mp (by rw [hnames]; decide)

theorem structNames_meet :
    (∀ field ∈ (namedMessage ["_foo", "x_foo"]).info.fields, isIdentifier field.name) ∧
    ((namedMessage ["_foo", "x_foo"]).info.fields.map fun field => flatName field.name).Nodup ∧
    structNames (namedMessage ["_foo", "x_foo"]) = ["XFoo", "XFoo"] ∧
    ¬(structNames (namedMessage ["_foo", "x_foo"])).Nodup := by
  decide +kernel

end SchemaGo.Lowering
