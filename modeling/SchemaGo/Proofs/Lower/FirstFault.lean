import SchemaGo.Proofs.Lower.OptionMaps
import SchemaGo.Proofs.Lower.Steps

/-!
# The first fault of a file

Lowering stops at the first thing that is wrong.  All that is wrong in a file can
be listed beforehand, element by element and each with the names around it, so
lowering succeeds exactly if the list is empty and fails with its first member
otherwise.
-/

namespace SchemaGo

namespace Lowering

theorem defaultFaults_eq_nil_iff {pool : Schema.Pool} {part : Schema.BareField} :
    defaultFaults pool part = [] ↔ ∃ default, Lower.fieldDefault pool part = .ok default := by
  rw [defaultFaults]
  cases Lower.fieldDefault pool part <;> simp

theorem faults_optionSteps_eq_nil_iff {scope : EmbedScope} {tree : FileTree} {path : SourcePath}
    {options : Option Schema.OptionSet} :
    LowerStep.faults tree (optionSteps scope path options) = [] ↔
      ∀ address ∈ optionAddresses path options, ∀ file, scope.embedFile? address = some file →
        ∃ contents, tree.read file = .ok contents := by
  have hread : ∀ file, (scope.on tree).readFault? file = none ↔
      ∃ contents, tree.read file = .ok contents :=
    fun file => EmbedScope.readFault?_eq_none_iff
  simp only [faults_optionSteps, List.map_eq_nil_iff, List.filterMap_eq_nil_iff, hread,
    EmbedScope.asked, List.mem_filterMap]
  constructor
  · exact fun h address haddress file hfile => h file ⟨address, haddress, hfile⟩
  · rintro h file ⟨address, haddress, hfile⟩
    exact h address haddress file hfile

theorem faults_elementSteps_eq_nil_iff {ctx : Context} {tree : FileTree}
    {lookup : SourcePath × Schema.Element} :
    LowerStep.faults tree (elementSteps ctx lookup) = [] ↔
      (∀ field, lookup.2 = .field field → ∀ part ∈ field.tagged,
        ∃ default, Lower.fieldDefault ctx.pool part = .ok default) ∧
      ∀ address ∈ optionAddresses (lookup.2.optionsPath lookup.1) lookup.2.options, ∀ file,
        ctx.scope.embedFile? address = some file → ∃ contents, tree.read file = .ok contents := by
  obtain ⟨path, element⟩ := lookup
  rw [elementSteps, LowerStep.faults_append, List.append_eq_nil_iff,
    faults_optionSteps_eq_nil_iff]
  refine and_congr_left fun _ => ?_
  cases element with
  | field declared =>
      have hreject : ∀ faults : List Wire.DefaultFault,
          LowerStep.faults tree (faults.map fun fault => .reject (.badDefault fault)) =
            faults.map .badDefault := by
        intro faults
        rw [LowerStep.faults, List.filterMap_map]
        exact congrFun List.filterMap_eq_map faults
      simp only [hreject, List.map_eq_nil_iff, List.flatMap_eq_nil_iff, defaultFaults_eq_nil_iff,
        Schema.Element.field.injEq, forall_eq']
  | _ => simp [LowerStep.faults]

end Lowering

namespace Schema

def File.faults (ctx : Lowering.Context) (file : File) : List LowerFault :=
  LowerStep.faults ctx.scope.files (file.steps ctx)

theorem ElementGroup.map_snd_lookups (group : ElementGroup) :
    group.lookups.map Prod.snd = group.parts ++ [group.whole] := by
  simp [lookups]

theorem File.field_mem_lookups_iff (file : File) (field : Field) :
    Element.field field ∈ file.lookups.map Prod.snd ↔
      ∃ message ∈ file.keptMessages, field ∈ message.info.fields := by
  simp only [lookups, List.map_flatMap, ElementGroup.map_snd_lookups, List.mem_flatMap, groups,
    List.mem_cons, List.mem_append, List.mem_map, ← file.map_snd_messagesOf_eq_kept]
  constructor
  · rintro ⟨group, rfl | (⟨declared, hdeclared, rfl⟩ | ⟨declared, -, rfl⟩) | ⟨declared, -, rfl⟩,
      hfield⟩
    · simp [fileGroup] at hfield
    · refine ⟨declared.2, ⟨declared, hdeclared, rfl⟩, ?_⟩
      simpa [messageGroup, (fieldsByNumber_perm _).mem_iff] using hfield
    · simp [enumGroup] at hfield
    · simp [serviceGroup] at hfield
  · rintro ⟨message, ⟨declared, hdeclared, rfl⟩, hfield⟩
    refine ⟨messageGroup declared, .inr (.inl (.inl ⟨declared, hdeclared, rfl⟩)), .inl ?_⟩
    simpa [messageGroup, (fieldsByNumber_perm _).mem_iff] using hfield

theorem ElementGroup.faults_steps_eq_nil_iff {ctx : Lowering.Context} {tree : FileTree}
    {group : ElementGroup} :
    LowerStep.faults tree (group.steps ctx) = [] ↔
      ∀ lookup ∈ group.lookups, LowerStep.faults tree (Lowering.elementSteps ctx lookup) = [] := by
  simp [steps, lookups, or_imp, forall_and]

theorem File.faults_eq_nil_iff (ctx : Lowering.Context) (file : File) :
    file.faults ctx = [] ↔
      (∀ message ∈ file.keptMessages, ∀ field ∈ message.info.fields, ∀ part ∈ field.tagged,
        ∃ default, Lower.fieldDefault ctx.pool part = .ok default) ∧
      ∀ lookup ∈ file.lookups,
        ∀ address ∈ optionAddresses (lookup.2.optionsPath lookup.1) lookup.2.options, ∀ name,
          ctx.scope.embedFile? address = some name →
            ∃ contents, ctx.scope.files.read name = .ok contents := by
  have hlookups : file.faults ctx = [] ↔ ∀ lookup ∈ file.lookups,
      LowerStep.faults ctx.scope.files (Lowering.elementSteps ctx lookup) = [] := by
    simp only [faults, steps, lookups, LowerStep.faults_flatMap, List.flatMap_eq_nil_iff,
      ElementGroup.faults_steps_eq_nil_iff, List.mem_flatMap]
    constructor
    · rintro h lookup ⟨group, hgroup, hlookup⟩
      exact h group hgroup lookup hlookup
    · intro h group hgroup lookup hlookup
      exact h lookup ⟨group, hgroup, hlookup⟩
  have hfields : (∀ lookup ∈ file.lookups, ∀ field, lookup.2 = .field field →
        ∀ part ∈ field.tagged, ∃ default, Lower.fieldDefault ctx.pool part = .ok default) ↔
      ∀ message ∈ file.keptMessages, ∀ field ∈ message.info.fields, ∀ part ∈ field.tagged,
        ∃ default, Lower.fieldDefault ctx.pool part = .ok default := by
    constructor
    · intro h message hmessage field hfield
      obtain ⟨lookup, hlookup, heq⟩ :=
        List.mem_map.mp ((file.field_mem_lookups_iff field).mpr ⟨message, hmessage, hfield⟩)
      exact h lookup hlookup field heq
    · intro h lookup hlookup field heq
      obtain ⟨message, hmessage, hfield⟩ :=
        (file.field_mem_lookups_iff field).mp (List.mem_map.mpr ⟨lookup, hlookup, heq⟩)
      exact h message hmessage field hfield
  simp only [hlookups, Lowering.faults_elementSteps_eq_nil_iff, forall_and, hfields]

theorem Linked.stops_lower (linked : Linked) (files : FileTree) (id : Ast.FileId) :
    Stops (linked.file.faults (linked.context files id)) (linked.lower files id) := by
  have hparts : Stops (linked.file.faults (linked.context files id))
      (Lowering.parts (linked.context files id) linked.file []) :=
    (Lowering.follows_parts (linked.context files id) linked.file).stops_run files []
  simp only [context] at hparts ⊢
  simp only [lower]
  generalize linked.file.faults _ = faults at hparts ⊢
  generalize Lowering.parts _ linked.file [] = run at hparts ⊢
  cases hparts with
  | never result => exact .never _
  | first fault later => exact .first fault later

theorem File.groups_in_order (file : File) :
    file.groups.map (fun group => (group.whole, group.parts)) =
      (.file file, []) ::
        (file.keptMessages.map (fun message =>
            (Element.message message, message.info.fieldsByNumber.map .field)) ++
          (file.enums ++ file.keptMessages.flatMap (·.info.enums)).map (fun enum =>
            (Element.enum enum, enum.valuesByNumber.map .value)) ++
          file.services.map (fun service =>
            (Element.service service, service.methods.map .method))) := by
  rw [← file.map_snd_enumsOf_eq_kept, ← file.map_snd_messagesOf_eq_kept,
    ← Lowering.map_snd_placed [] 6 0 file.services]
  simp only [groups, List.map_cons, List.map_append, List.map_map]
  rfl

/-- Lowering succeeds exactly if the defaults of every field and of the entry of every map are well
formed and every file asked for in options can be read, messages that are left out apart.  Otherwise
it fails with the first fault: that of the options of the file, of a message with its fields, of an
enum with its values or of a service with its methods. -/
theorem Linked.lower_stops_at_first (linked : Linked) (files : FileTree) (id : Ast.FileId) :
    ((∃ lowered, linked.lower files id = .ok lowered) ↔
      (∀ message ∈ linked.file.keptMessages, ∀ field ∈ message.info.fields,
        ∀ part ∈ field.tagged, ∃ default, Lower.fieldDefault linked.pool part = .ok default) ∧
      ∀ lookup ∈ linked.file.lookups,
        ∀ address ∈ optionAddresses (lookup.2.optionsPath lookup.1) lookup.2.options, ∀ name,
          (linked.context files id).scope.embedFile? address = some name →
            ∃ contents, files.read name = .ok contents) ∧
    (∀ fault, linked.lower files id = .error fault ↔
      (linked.file.faults (linked.context files id)).head? = some fault) ∧
    linked.file.groups.map (fun group => (group.whole, group.parts)) =
      (.file linked.file, []) ::
        (linked.file.keptMessages.map (fun message =>
            (Element.message message, message.info.fieldsByNumber.map .field)) ++
          (linked.file.enums ++ linked.file.keptMessages.flatMap (·.info.enums)).map (fun enum =>
            (Element.enum enum, enum.valuesByNumber.map .value)) ++
          linked.file.services.map (fun service =>
            (Element.service service, service.methods.map .method))) := by
  have hstops := linked.stops_lower files id
  refine ⟨?_, hstops.error_iff, linked.file.groups_in_order⟩
  rw [hstops.ok_iff]
  exact linked.file.faults_eq_nil_iff (linked.context files id)

/-! ## Options of map entries -/

def entryPartField (name : String) (number : Nat) : Field :=
  sampleField name number .optional (.single (.scalar .string))

def entryMessage : Message :=
  let entry := sampleMessage "FooEntry" "A.FooEntry"
    [entryPartField "key" 1, entryPartField "value" 2] [] []
  .mk { entry.info with isMapEntry := true, options := sampleNote "x" } []

def entryFile : File :=
  let foo := sampleField "foo" 1 .repeated (.map ⟨⟨"FooEntry", "A.FooEntry", "a.proto"⟩, false,
    (entryPartField "key" 1).bare, (entryPartField "value" 2).bare⟩)
  { sampleFile with
    messages := [sampleMessage "A" "A" [foo] [] [entryMessage]]
    locations := [⟨[4, 0, 3, 0, 7, 50307], some " @embed missing.bin\n", none⟩] }

def entryLinked : Linked := ⟨⟨[entryFile]⟩, entryFile, ""⟩

/-- A file that is missing for the option of an element does no harm if the element is the entry of
a map. -/
theorem Linked.lower_ignores_entry_options :
    (∃ lowered, entryLinked.lower (.empty []) 0 = .ok lowered) ∧
    ¬ ∀ path element, (Element.file entryFile).at? path = some element →
      ∀ address ∈ optionAddresses (element.optionsPath path) element.options, ∀ name,
        (entryLinked.context (.empty []) 0).scope.embedFile? address = some name →
          ∃ contents, (FileTree.empty []).read name = .ok contents := by
  constructor
  · exact Linked.exists_lowered (by decide +kernel)
  · intro h
    have hentry : (Element.file entryFile).at? [4, 0, 3, 0] = some (.message entryMessage) := rfl
    have haddress : [4, 0, 3, 0, 7, 50307] ∈
        optionAddresses ((Element.message entryMessage).optionsPath [4, 0, 3, 0])
          entryMessage.info.options := by decide
    have hname : (entryLinked.context (.empty []) 0).scope.embedFile? [4, 0, 3, 0, 7, 50307] =
        some "missing.bin" := by decide +kernel
    have hmissing : (FileTree.empty []).read "missing.bin" = .error .notFound := by decide +kernel
    obtain ⟨contents, hread⟩ := h _ _ hentry _ haddress _ hname
    rw [hmissing] at hread
    cases hread

end Schema

end SchemaGo
