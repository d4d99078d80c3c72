import SchemaGo.Proofs.Lower.Location
import SchemaGo.Proofs.Option.Unwrap

/-!
# Where options are looked up

Lowering looks up the options of every element at some source path.  The
position of a field or of an enum value in that path counts by number, so the
path is the location of the element itself exactly if these are declared in the
order of their numbers.
-/

namespace SchemaGo.Schema

/-! ## Orders -/

theorem insertByKey_perm {α : Type} (key : α → Int) (item : α) (items : List α) :
    (insertByKey key item items).Perm (item :: items) := by
  induction items with
  | nil => exact List.Perm.refl _
  | cons other rest ih =>
      rw [insertByKey]
      split
      · exact List.Perm.refl _
      · exact (ih.cons other).trans (List.Perm.swap item other rest)

theorem fieldsByNumber_perm (info : MessageInfo) : info.fieldsByNumber.Perm info.fields := by
  rw [MessageInfo.fieldsByNumber]
  induction info.fields with
  | nil => exact List.Perm.refl _
  | cons field rest ih => exact (insertByKey_perm _ field _).trans (ih.cons field)

theorem valuesByNumber_perm (enum : Enum) : enum.valuesByNumber.Perm enum.values := by
  have hfold : ∀ values done : List EnumValue,
      (values.foldl (fun values value => insertByKey (·.number) value values) done).Perm
        (values ++ done) := by
    intro values
    induction values with
    | nil => exact fun done => List.Perm.refl done
    | cons value rest ih =>
        intro done
        refine (ih _).trans ?_
        exact ((insertByKey_perm _ value done).append_left rest).trans List.perm_middle
  simpa [Enum.valuesByNumber] using hfold enum.values []

/-! ## Groups -/

def Element.isPart : Element → Bool
  | .field _ | .value _ | .method _ => true
  | .file _ | .message _ | .enum _ | .service _ => false

theorem Element.childrenAt_of_isPart {element : Element} (h : element.isPart) (number : Int) :
    element.childrenAt number = [] := by
  cases element with
  | field _ | value _ | method _ =>
      rw [childrenAt]
      split <;> rfl
  | file _ | message _ | enum _ | service _ => cases h

structure ElementGroup where
  path : SourcePath
  whole : Element
  parts : List Element

def ElementGroup.lookups (group : ElementGroup) : List (SourcePath × Element) :=
  Lowering.placed group.path 2 0 group.parts ++ [(group.path, group.whole)]

def fileGroup (file : File) : ElementGroup := ⟨[], .file file, []⟩

def messageGroup (declared : SourcePath × Message) : ElementGroup :=
  ⟨declared.1, .message declared.2, declared.2.info.fieldsByNumber.map .field⟩

def enumGroup (declared : SourcePath × Enum) : ElementGroup :=
  ⟨declared.1, .enum declared.2, declared.2.valuesByNumber.map .value⟩

def serviceGroup (declared : SourcePath × Service) : ElementGroup :=
  ⟨declared.1, .service declared.2, declared.2.methods.map .method⟩

def File.groups (file : File) : List ElementGroup :=
  fileGroup file :: ((Lowering.messagesOf file).map messageGroup ++
    (Lowering.enumsOf file).map enumGroup ++ (Lowering.servicesOf file).map serviceGroup)

/-- All elements of a file whose options are looked up, in the order of lowering. -/
def File.lookups (file : File) : List (SourcePath × Element) :=
  file.groups.flatMap ElementGroup.lookups

theorem File.flatMap_groups {α : Type} (file : File) (collect : ElementGroup → List α) :
    file.groups.flatMap collect = collect (fileGroup file) ++
      ((Lowering.messagesOf file).flatMap (fun declared => collect (messageGroup declared)) ++
      ((Lowering.placed [] 5 0 file.enums).flatMap (fun declared => collect (enumGroup declared)) ++
      (((Lowering.messagesOf file).flatMap Lowering.ownEnums).flatMap
        (fun declared => collect (enumGroup declared)) ++
      (Lowering.servicesOf file).flatMap (fun declared => collect (serviceGroup declared))))) := by
  rw [File.groups, List.flatMap_cons, List.flatMap_append, List.flatMap_append, List.flatMap_map,
    List.flatMap_map, List.flatMap_map, Lowering.enumsOf, List.flatMap_append, List.append_assoc,
    List.append_assoc]

structure ElementGroup.Located (root : Element) (group : ElementGroup) : Prop where
  whole : root.at? group.path = some group.whole
  parts : group.parts.Perm (group.whole.childrenAt 2)
  isPart : ∀ part ∈ group.parts, part.isPart
  not_isPart : group.whole.isPart = false

theorem at?_of_mem_enumsOf {file : File} {declared : SourcePath × Enum}
    (h : declared ∈ Lowering.enumsOf file) :
    (Element.file file).at? declared.1 = some (.enum declared.2) := by
  have hroot : (Element.file file).at? [] = some (.file file) := rfl
  rcases List.mem_append.mp h with h | h
  · obtain ⟨index, hitem, hpath⟩ := Lowering.mem_placed.mp h
    simp [hpath, Element.at?_child hroot, hitem]
  · obtain ⟨message, hmessage, h⟩ := List.mem_flatMap.mp h
    obtain ⟨index, hitem, hpath⟩ := Lowering.mem_placed.mp h
    simp [hpath, Element.at?_child (Element.at?_of_mem_messagesOf hmessage), hitem]

theorem at?_of_mem_servicesOf {file : File} {declared : SourcePath × Service}
    (h : declared ∈ Lowering.servicesOf file) :
    (Element.file file).at? declared.1 = some (.service declared.2) := by
  have hroot : (Element.file file).at? [] = some (.file file) := rfl
  obtain ⟨index, hitem, hpath⟩ := Lowering.mem_placed.mp h
  simp [hpath, Element.at?_child hroot, hitem]

theorem File.located_of_mem_groups {file : File} {group : ElementGroup}
    (h : group ∈ file.groups) : group.Located (.file file) := by
  simp only [File.groups, List.mem_cons, List.mem_append, List.mem_map] at h
  rcases h with rfl | (⟨declared, hdeclared, rfl⟩ | ⟨declared, hdeclared, rfl⟩) |
    ⟨declared, hdeclared, rfl⟩
  · exact ⟨rfl, List.Perm.refl [], by simp [fileGroup], rfl⟩
  · exact ⟨Element.at?_of_mem_messagesOf hdeclared, (fieldsByNumber_perm _).map _,
      by simp [messageGroup, Element.isPart], rfl⟩
  · exact ⟨at?_of_mem_enumsOf hdeclared, (valuesByNumber_perm _).map _,
      by simp [enumGroup, Element.isPart], rfl⟩
  · exact ⟨at?_of_mem_servicesOf hdeclared, List.Perm.refl _,
      by simp [serviceGroup, Element.isPart], rfl⟩

/-! ## Own locations -/

variable {root : Element} {group : ElementGroup}

theorem ElementGroup.Located.at?_part (h : group.Located root) (index : Nat) :
    root.at? (Lowering.child group.path 2 index) = (group.whole.childrenAt 2)[index]? :=
  Element.at?_child h.whole 2 index

theorem ElementGroup.Located.lookups_iff (h : group.Located root) :
    (∀ lookup ∈ group.lookups, root.at? lookup.1 = some lookup.2) ↔
      group.parts = group.whole.childrenAt 2 := by
  constructor
  · intro hown
    refine List.ext_getElem? fun index => ?_
    cases hpart : group.parts[index]? with
    | none =>
        rw [List.getElem?_eq_none_iff] at hpart
        rw [eq_comm, List.getElem?_eq_none_iff, ← h.parts.length_eq]
        exact hpart
    | some part =>
        have hmem : (Lowering.child group.path 2 index, part) ∈ group.lookups :=
          List.mem_append_left _ (Lowering.mem_placed.mpr ⟨index, hpart, by rw [Nat.zero_add]⟩)
        rw [← h.at?_part]
        exact (hown _ hmem).symm
  · intro hparts lookup hlookup
    rcases List.mem_append.mp hlookup with hlookup | hlookup
    · obtain ⟨index, hpart, hpath⟩ := Lowering.mem_placed.mp hlookup
      rw [hpath, Nat.zero_add, h.at?_part, ← hparts, hpart]
    · rw [List.mem_singleton.mp hlookup]
      exact h.whole

theorem ElementGroup.Located.exists_at? (h : group.Located root) {lookup : SourcePath × Element}
    (hlookup : lookup ∈ group.lookups) :
    ∃ inner, root.at? lookup.1 = some inner ∧ inner.isPart = lookup.2.isPart ∧
      inner.childrenAt lookup.2.optionsNumber = [] := by
  rcases List.mem_append.mp hlookup with hlookup | hlookup
  · obtain ⟨index, hpart, hpath⟩ := Lowering.mem_placed.mp hlookup
    have hindex : index < (group.whole.childrenAt 2).length := by
      rw [← h.parts.length_eq]
      exact (List.getElem?_eq_some_iff.mp hpart).1
    have hinner := List.getElem?_eq_getElem hindex
    have hisPart := h.isPart _ (h.parts.mem_iff.mpr (List.getElem_mem hindex))
    refine ⟨(group.whole.childrenAt 2)[index], ?_, ?_, Element.childrenAt_of_isPart hisPart _⟩
    · rw [hpath, Nat.zero_add, h.at?_part, hinner]
    · rw [hisPart, h.isPart _ (List.mem_of_getElem? hpart)]
  · rw [List.mem_singleton.mp hlookup]
    exact ⟨group.whole, h.whole, rfl, group.whole.childrenAt_optionsNumber⟩

/-! ## Different locations -/

theorem ElementGroup.pairwise_lookups (group : ElementGroup) :
    group.lookups.Pairwise fun lookup other => lookup.1 ≠ other.1 := by
  refine List.pairwise_append.mpr
    ⟨Lowering.pairwise_placed group.path 2 0 group.parts, List.pairwise_singleton _ _, ?_⟩
  intro lookup hlookup other hother heq
  obtain ⟨index, -, hpath⟩ := Lowering.mem_placed.mp hlookup
  rw [List.mem_singleton.mp hother, hpath, Lowering.child] at heq
  simp at heq

theorem ElementGroup.Located.lookups_ne {other : ElementGroup} (h : group.Located root)
    (hother : other.Located root) (hne : group.path ≠ other.path) :
    ∀ lookup ∈ group.lookups, ∀ lookup' ∈ other.lookups, lookup.1 ≠ lookup'.1 := by
  intro lookup hlookup lookup' hlookup' heq
  obtain ⟨inner, hinner, hkind, -⟩ := h.exists_at? hlookup
  obtain ⟨inner', hinner', hkind', -⟩ := hother.exists_at? hlookup'
  have hsame : lookup.2.isPart = lookup'.2.isPart := by
    rw [heq, hinner'] at hinner
    cases hinner
    rw [← hkind, hkind']
  rcases List.mem_append.mp hlookup with hlookup | hlookup
  · rcases List.mem_append.mp hlookup' with hlookup' | hlookup'
    · obtain ⟨index, -, hpath⟩ := Lowering.mem_placed.mp hlookup
      obtain ⟨index', -, hpath'⟩ := Lowering.mem_placed.mp hlookup'
      rw [hpath, hpath'] at heq
      exact hne (Lowering.child_inj heq).1
    · obtain ⟨index, hpart, -⟩ := Lowering.mem_placed.mp hlookup
      rw [List.mem_singleton.mp hlookup', hother.not_isPart,
        h.isPart _ (List.mem_of_getElem? hpart)] at hsame
      cases hsame
  · rcases List.mem_append.mp hlookup' with hlookup' | hlookup'
    · obtain ⟨index', hpart', -⟩ := Lowering.mem_placed.mp hlookup'
      rw [List.mem_singleton.mp hlookup, h.not_isPart,
        hother.isPart _ (List.mem_of_getElem? hpart')] at hsame
      cases hsame
    · rw [List.mem_singleton.mp hlookup, List.mem_singleton.mp hlookup'] at heq
      exact hne heq

theorem pairwise_enumsOf (file : File) :
    (Lowering.enumsOf file).Pairwise fun declared other => declared.1 ≠ other.1 := by
  refine List.pairwise_append.mpr ⟨Lowering.pairwise_placed [] 5 0 file.enums, ?_, ?_⟩
  · rw [List.pairwise_flatMap]
    refine ⟨fun message _ => Lowering.pairwise_placed message.1 4 0 message.2.info.enums, ?_⟩
    refine (Lowering.pairwise_emittedAll [] [] 4 0 file.messages).imp ?_
    intro message message' hne declared hdeclared other hother heq
    obtain ⟨index, -, hpath⟩ := Lowering.mem_placed.mp hdeclared
    obtain ⟨index', -, hpath'⟩ := Lowering.mem_placed.mp hother
    rw [hpath, hpath'] at heq
    exact hne (Lowering.child_inj heq).1
  · intro declared hdeclared other hother heq
    obtain ⟨index, -, hpath⟩ := Lowering.mem_placed.mp hdeclared
    obtain ⟨message, -, hother⟩ := List.mem_flatMap.mp hother
    obtain ⟨index', -, hpath'⟩ := Lowering.mem_placed.mp hother
    rw [hpath, hpath'] at heq
    exact absurd (Lowering.child_inj heq).2.1 (by decide)

theorem path_ne_of_at? {path path' : SourcePath} {element element' : Element}
    (h : root.at? path = some element) (h' : root.at? path' = some element')
    (hne : element.metaType ≠ element'.metaType) : path ≠ path' := by
  rintro rfl
  rw [h] at h'
  cases h'
  exact hne rfl

theorem File.pairwise_groups (file : File) :
    file.groups.Pairwise fun group other => group.path ≠ other.path := by
  have hroot : (Element.file file).at? [] = some (.file file) := rfl
  simp only [File.groups, List.pairwise_cons, List.pairwise_append, List.pairwise_map,
    List.mem_append, List.mem_map]
  refine ⟨?_, ⟨Lowering.pairwise_emittedAll [] [] 4 0 file.messages, pairwise_enumsOf file, ?_⟩,
    Lowering.pairwise_placed [] 6 0 file.services, ?_⟩
  · rintro _ ((⟨message, hmessage, rfl⟩ | ⟨enum, henum, rfl⟩) | ⟨service, hservice, rfl⟩)
    · exact path_ne_of_at? hroot (Element.at?_of_mem_messagesOf hmessage)
        (by simp [Element.metaType])
    · exact path_ne_of_at? hroot (at?_of_mem_enumsOf henum) (by simp [Element.metaType])
    · exact path_ne_of_at? hroot (at?_of_mem_servicesOf hservice) (by simp [Element.metaType])
  · rintro _ ⟨message, hmessage, rfl⟩ _ ⟨enum, henum, rfl⟩
    exact path_ne_of_at? (Element.at?_of_mem_messagesOf hmessage) (at?_of_mem_enumsOf henum)
      (by simp [Element.metaType])
  · rintro _ (⟨message, hmessage, rfl⟩ | ⟨enum, henum, rfl⟩) _ ⟨service, hservice, rfl⟩
    · exact path_ne_of_at? (Element.at?_of_mem_messagesOf hmessage)
        (at?_of_mem_servicesOf hservice) (by simp [Element.metaType])
    · exact path_ne_of_at? (at?_of_mem_enumsOf henum) (at?_of_mem_servicesOf hservice)
        (by simp [Element.metaType])

theorem File.pairwise_lookups (file : File) :
    file.lookups.Pairwise fun lookup other => lookup.1 ≠ other.1 := by
  refine List.pairwise_flatMap.mpr ⟨fun group _ => group.pairwise_lookups, ?_⟩
  refine List.Pairwise.imp_of_mem ?_ file.pairwise_groups
  intro group other hgroup hother hne
  exact (located_of_mem_groups hgroup).lookups_ne (located_of_mem_groups hother) hne

theorem File.pairwise_options_apart (file : File) :
    file.lookups.Pairwise fun lookup other => ∀ place,
      ¬ (lookup.2.optionsPath lookup.1 <+: place ∧ other.2.optionsPath other.1 <+: place) := by
  refine List.Pairwise.imp_of_mem ?_ file.pairwise_lookups
  intro lookup other hlookup hother hne place
  obtain ⟨group, hgroup, hlookup⟩ := List.mem_flatMap.mp hlookup
  obtain ⟨group', hgroup', hother⟩ := List.mem_flatMap.mp hother
  obtain ⟨inner, hinner, -, hnone⟩ := (located_of_mem_groups hgroup).exists_at? hlookup
  obtain ⟨inner', hinner', -, hnone'⟩ := (located_of_mem_groups hgroup').exists_at? hother
  exact Element.options_apart hinner hinner' hnone hnone' hne place

/-! ## Declaration by number -/

/-- The fields of messages and the values of enums that are lowered are declared in the order of
their numbers; no two values have the same. -/
structure File.DeclaredByNumber (file : File) : Prop where
  fields : ∀ declared ∈ Lowering.messagesOf file,
    declared.2.info.fieldsByNumber = declared.2.info.fields
  values : ∀ declared ∈ Lowering.enumsOf file,
    declared.2.valuesByNumber = declared.2.values

theorem File.declaredByNumber_iff (file : File) :
    file.DeclaredByNumber ↔
      ∀ group ∈ file.groups, group.parts = group.whole.childrenAt 2 := by
  have hfield : Function.Injective Element.field := fun _ _ h => Element.field.inj h
  have hvalue : Function.Injective Element.value := fun _ _ h => Element.value.inj h
  simp only [File.groups, List.mem_cons, List.mem_append, List.mem_map]
  constructor
  · rintro ⟨hfields, hvalues⟩ _ (rfl |
      (⟨declared, hdeclared, rfl⟩ | ⟨declared, hdeclared, rfl⟩) | ⟨declared, -, rfl⟩)
    · rfl
    · exact congrArg (List.map Element.field) (hfields declared hdeclared)
    · exact congrArg (List.map Element.value) (hvalues declared hdeclared)
    · rfl
  · intro h
    constructor
    · intro declared hdeclared
      exact hfield.list_map (h _ (.inr (.inl (.inl ⟨declared, hdeclared, rfl⟩))))
    · intro declared hdeclared
      exact hvalue.list_map (h _ (.inr (.inl (.inr ⟨declared, hdeclared, rfl⟩))))

def Element.isNumbered : Element → Bool
  | .field _ | .value _ => true
  | .file _ | .message _ | .enum _ | .service _ | .method _ => false

theorem File.at?_of_mem_lookups {file : File} {lookup : SourcePath × Element}
    (h : lookup ∈ file.lookups) (hnumbered : lookup.2.isNumbered = false) :
    (Element.file file).at? lookup.1 = some lookup.2 := by
  obtain ⟨group, hgroup, h⟩ := List.mem_flatMap.mp h
  have hlocated := located_of_mem_groups hgroup
  rcases List.mem_append.mp h with hpart | hwhole
  · obtain ⟨index, hpart, -⟩ := Lowering.mem_placed.mp hpart
    have hmem : lookup.2 ∈ group.parts := List.mem_of_getElem? hpart
    have hmethods : group.parts = group.whole.childrenAt 2 := by
      simp only [File.groups, List.mem_cons, List.mem_append, List.mem_map] at hgroup
      rcases hgroup with rfl | (⟨declared, -, rfl⟩ | ⟨declared, -, rfl⟩) | ⟨declared, -, rfl⟩
      · rfl
      · obtain ⟨field, -, heq⟩ := List.mem_map.mp hmem
        simp [← heq, Element.isNumbered] at hnumbered
      · obtain ⟨value, -, heq⟩ := List.mem_map.mp hmem
        simp [← heq, Element.isNumbered] at hnumbered
      · rfl
    exact hlocated.lookups_iff.mpr hmethods lookup h
  · rw [List.mem_singleton.mp hwhole]
    exact hlocated.whole

theorem File.lookups_iff (file : File) :
    (∀ lookup ∈ file.lookups, (Element.file file).at? lookup.1 = some lookup.2) ↔
      file.DeclaredByNumber := by
  rw [file.declaredByNumber_iff]
  constructor
  · intro h group hgroup
    refine (located_of_mem_groups hgroup).lookups_iff.mp fun lookup hlookup => ?_
    exact h lookup (List.mem_flatMap.mpr ⟨group, hgroup, hlookup⟩)
  · intro h lookup hlookup
    obtain ⟨group, hgroup, hlookup⟩ := List.mem_flatMap.mp hlookup
    exact (located_of_mem_groups hgroup).lookups_iff.mpr (h group hgroup) lookup hlookup

end SchemaGo.Schema
