import Mathlib.Data.List.Pairwise
import SchemaGo.Proofs.Lower.Flattening
import SchemaGo.Proofs.Lower.Lookup
import SchemaGo.Proofs.Option.Idempotence
import SchemaGo.Proofs.Option.Positions
import SchemaGo.Proofs.Option.UniformKeys

/-!
# What is found where options are looked up

The options of a lowered file are those that unwrapping finds at the paths where
lowering looks them up, one by one.  A comment has to do with the options above
it only, so it is seen by one element at most.
-/

namespace SchemaGo

/-! ## The options of lowered elements -/

def Ast.Message.optionMaps (message : Ast.Message) : List OptionMap :=
  message.fields.map (·.options) ++ [message.options]

def Ast.Enum.optionMaps (enum : Ast.Enum) : List OptionMap :=
  enum.values.map (·.options) ++ [enum.options]

def Ast.Service.optionMaps (service : Ast.Service) : List OptionMap :=
  service.rpcs.map (·.options) ++ [service.options]

def Ast.File.optionMaps (file : Ast.File) (services : List Ast.Service) : List OptionMap :=
  [file.options] ++ (file.messages.flatMap (·.optionMaps) ++ file.enums.flatMap (·.optionMaps) ++
    services.flatMap (·.optionMaps))

namespace Schema

def Finds (scope : EmbedScope) (lookup : SourcePath × Element) (found : OptionMap) : Prop :=
  ∃ embedded embedded', scope.unwrapOptions (lookup.2.optionsPath lookup.1) lookup.2.options
    embedded = .ok (found, embedded')

theorem finds_of_yields {ctx : Lowering.Context} {path : SourcePath} {element : Element}
    {found : OptionMap}
    (h : Lowering.Yields (Lowering.options ctx (element.optionsPath path) element.options) found) :
    Finds ctx.scope (path, element) found := by
  obtain ⟨embedded, embedded', h⟩ := h
  rw [Lowering.options] at h
  split at h
  · rename_i hrun
    cases h
    exact ⟨embedded, embedded', hrun⟩
  · cases h

theorem isSorted_of_finds {scope : EmbedScope} {lookup : SourcePath × Element}
    {found : OptionMap} (h : Finds scope lookup found) : OptionValue.IsSorted (.map found) := by
  obtain ⟨embedded, embedded', h⟩ := h
  exact EmbedScope.isSorted_unwrapOptions h

theorem finds_group {α : Type} {ctx : Lowering.Context} {path : SourcePath} {whole : Element}
    {found : OptionMap} {items : List α} {part : α → Element} {founds : List OptionMap}
    (hparts : List.Forall₂ (fun declared => Lowering.Yields (Lowering.options ctx
        ((part declared.2).optionsPath declared.1) (part declared.2).options))
      (Lowering.placed path 2 0 items) founds)
    (hwhole : Lowering.Yields (Lowering.options ctx (whole.optionsPath path) whole.options)
      found) :
    List.Forall₂ (Finds ctx.scope) (ElementGroup.lookups ⟨path, whole, items.map part⟩)
      (founds ++ [found]) := by
  refine List.rel_append ?_ (.cons (finds_of_yields hwhole) .nil)
  rw [Lowering.placed_map]
  exact List.forall₂_map_left_iff.mpr (hparts.imp fun _ _ h => finds_of_yields h)

theorem finds_message {ctx : Lowering.Context} {declared : SourcePath × Message}
    {lowered : Ast.Message}
    (h : Lowering.Yields (Lowering.message ctx declared.1 declared.2) lowered) :
    List.Forall₂ (Finds ctx.scope) (messageGroup declared).lookups lowered.optionMaps := by
  obtain ⟨hfields, hoptions, -⟩ := h.of_message
  refine finds_group (List.forall₂_map_right_iff.mpr ?_) hoptions
  refine hfields.imp fun _ _ hfield => ?_
  obtain ⟨wire, structTag, fieldOptions, -, -, hfound, rfl⟩ := Lowering.Yields.of_field hfield
  exact hfound

theorem finds_enum {ctx : Lowering.Context} {declared : SourcePath × Enum}
    {lowered : Ast.Enum} (h : Lowering.Yields (Lowering.enum ctx declared.1 declared.2) lowered) :
    List.Forall₂ (Finds ctx.scope) (enumGroup declared).lookups lowered.optionMaps := by
  obtain ⟨hvalues, hoptions, -⟩ := h.of_enum
  refine finds_group (List.forall₂_map_right_iff.mpr ?_) hoptions
  exact hvalues.imp fun _ _ hvalue => (Lowering.Yields.of_enumValue hvalue).2.2

structure FindsService (scope : EmbedScope) (declared : SourcePath × Service)
    (raw : Ast.Service) : Prop where
  options : List.Forall₂ (Finds scope) (serviceGroup declared).lookups raw.optionMaps
  templates : raw.codeGeneration =
    scope.comments.directiveValues declared.1.render Directive.generate

theorem findsService_of_yields {ctx : Lowering.Context} {declared : SourcePath × Service}
    {lowered : Ast.Service}
    (h : Lowering.Yields (Lowering.service ctx declared.1 declared.2) lowered) :
    ∃ raw, lowered = normalizeService raw ∧ FindsService ctx.scope declared raw := by
  obtain ⟨raw, hnormal, hrpcs, hoptions, htemplates⟩ := h.of_service
  refine ⟨raw, hnormal, finds_group (List.forall₂_map_right_iff.mpr ?_) hoptions, htemplates⟩
  exact hrpcs.imp fun _ _ hrpc => Lowering.Yields.of_rpc hrpc

theorem exists_raw_services {ctx : Lowering.Context} {declared : List (SourcePath × Service)}
    {lowered : List Ast.Service}
    (h : List.Forall₂ (fun service => Lowering.Yields (Lowering.service ctx service.1 service.2))
      declared lowered) :
    ∃ services, lowered = services.map normalizeService ∧
      List.Forall₂ (FindsService ctx.scope) declared services := by
  induction h with
  | nil => exact ⟨[], rfl, .nil⟩
  | cons hservice _ ih =>
      obtain ⟨raw, rfl, hraw⟩ := findsService_of_yields hservice
      obtain ⟨services, rfl, hservices⟩ := ih
      exact ⟨raw :: services, rfl, .cons hraw hservices⟩

theorem finds_file {ctx : Lowering.Context} {file : File} {lowered : Ast.File}
    {services : List Ast.Service}
    (hparts : Lowering.LowersParts ctx file lowered.options lowered.messages lowered.enums
      lowered.services)
    (hservices : List.Forall₂ (FindsService ctx.scope) (Lowering.servicesOf file) services) :
    List.Forall₂ (Finds ctx.scope) file.lookups (lowered.optionMaps services) := by
  have hfile : List.Forall₂ (Finds ctx.scope) (fileGroup file).lookups [lowered.options] :=
    .cons (finds_of_yields hparts.options) .nil
  have hmessages := List.rel_flatMap hparts.messages fun _ _ h => finds_message h
  have henums := List.rel_flatMap hparts.enums fun _ _ h => finds_enum h
  have hraw := List.rel_flatMap hservices fun _ _ h => h.options
  rw [File.lookups, File.groups, List.flatMap_cons, List.flatMap_append, List.flatMap_append,
    List.flatMap_map, List.flatMap_map, List.flatMap_map]
  exact List.rel_append hfile (List.rel_append (List.rel_append hmessages henums) hraw)

theorem Linked.lower_services_isSorted {linked : Linked} {files : FileTree} {id : Ast.FileId}
    {lowered : Ast.File} (hlower : linked.lower files id = .ok lowered) :
    ∃ services : List Ast.Service, lowered.services = services.map normalizeService ∧
      ∀ service ∈ services, ∀ rpc ∈ service.rpcs, OptionValue.IsSorted (.map rpc.options) := by
  obtain ⟨services, hnormal, hservices⟩ :=
    exists_raw_services (linked.lowersParts_of_lower hlower).services
  refine ⟨services, hnormal, ?_⟩
  have hsorted : ∀ declared service,
      FindsService (linked.context files id).scope declared service →
        ∀ rpc ∈ service.rpcs, OptionValue.IsSorted (.map rpc.options) := by
    intro declared service h rpc hrpc
    have hmaps := ((List.forall₂_and_left _ _).mp
      (h.options.flip.imp fun _ _ hfinds => And.intro (isSorted_of_finds hfinds) hfinds)).1
    exact hmaps rpc.options (List.mem_append_left _ (List.mem_map_of_mem hrpc))
  exact ((List.forall₂_and_left _ _).mp
    (hservices.flip.imp fun _ _ h => And.intro (hsorted _ _ h) h)).1

/-- Lowered services are normal: where the union of their rpcs is a map, the options of every rpc
have its keys, and unless a list has unlike items another run changes nothing. -/
theorem Linked.lower_services_normal {linked : Linked} {files : FileTree} {id : Ast.FileId}
    {lowered : Ast.File} (hlower : linked.lower files id = .ok lowered) {service : Ast.Service}
    (hservice : service ∈ lowered.services) :
    ∃ declared, service = normalizeService declared ∧
      List.Forall₂ (Ast.Rpc.FilledBy (.map (unionShapes declared.rpcs))) declared.rpcs
        service.rpcs ∧
      (∀ rpc ∈ service.rpcs, ∀ path shapes entries,
        Reaches (.map (unionShapes declared.rpcs)) (.map rpc.options) path
          (.map shapes) (.map entries) →
        Table.keys shapes ⊆ Table.keys entries) ∧
      ((∀ rpc ∈ declared.rpcs, OptionValue.ListsAlike (.map rpc.options)) →
        normalizeService service = service) := by
  obtain ⟨services, hnormal, hsorted⟩ := lower_services_isSorted hlower
  rw [hnormal] at hservice
  obtain ⟨declared, hdeclared, rfl⟩ := List.mem_map.mp hservice
  have hsorted := hsorted declared hdeclared
  refine ⟨declared, rfl, filledBy_normalizeService hsorted, ?_,
    normalizeService_normalizeService hsorted⟩
  intro rpc hrpc path shapes entries hreaches key hkey
  exact keys_subset_of_reaches hsorted hrpc hreaches hkey

/-! ## Comments -/

def Ignores (scope : EmbedScope) (lookup : SourcePath × Element) (place : SourcePath) : Prop :=
  ∀ comment embedded,
    (scope.withComment place comment).unwrapOptions (lookup.2.optionsPath lookup.1)
        lookup.2.options embedded =
      scope.unwrapOptions (lookup.2.optionsPath lookup.1) lookup.2.options embedded

theorem ignores_of_not_prefix (scope : EmbedScope) {lookup : SourcePath × Element}
    {place : SourcePath} (h : ¬ lookup.2.optionsPath lookup.1 <+: place) :
    Ignores scope lookup place :=
  fun comment embedded => EmbedScope.unwrapOptions_congr
    (EmbedScope.agreeBelow_withComment comment h) lookup.2.options embedded

theorem File.ignores_of_ne (file : File) (scope : EmbedScope)
    {lookup other : SourcePath × Element} (hlookup : lookup ∈ file.lookups)
    (hother : other ∈ file.lookups) (hne : other ≠ lookup) {place : SourcePath}
    (hplace : lookup.2.optionsPath lookup.1 <+: place) : Ignores scope other place := by
  refine ignores_of_not_prefix scope fun hboth => ?_
  have hsymm : Std.Symm fun lookup other : SourcePath × Element => ∀ place,
      ¬ (lookup.2.optionsPath lookup.1 <+: place ∧ other.2.optionsPath other.1 <+: place) :=
    ⟨fun _ _ h place hplace => h place hplace.symm⟩
  exact file.pairwise_options_apart.forall hlookup hother hne.symm place ⟨hplace, hboth⟩

/-- The options of a lowered file are found by its lookups, each at a path of its own.  Fields and
enum values apart, that path is the location of the element; for all elements it is exactly if
fields and values are declared in the order of their numbers.  A comment below the options of one
element is ignored by all others. -/
theorem Linked.lower_lookups_own_iff (linked : Linked) (files : FileTree) (id : Ast.FileId)
    (lowered : Ast.File) (hlower : linked.lower files id = .ok lowered) :
    (∃ services, lowered.services = services.map normalizeService ∧
      List.Forall₂ (Finds (linked.context files id).scope) linked.file.lookups
        (lowered.optionMaps services) ∧
      List.Forall₂ (fun declared service => service.codeGeneration =
          (linked.context files id).scope.comments.directiveValues
            (SourcePath.render declared.1) Directive.generate)
        (Lowering.servicesOf linked.file) services) ∧
    ((∀ lookup ∈ linked.file.lookups,
        (Element.file linked.file).at? lookup.1 = some lookup.2) ↔
      linked.file.DeclaredByNumber) ∧
    (∀ lookup ∈ linked.file.lookups, lookup.2.isNumbered = false →
      (Element.file linked.file).at? lookup.1 = some lookup.2) ∧
    (linked.file.lookups.map Prod.fst).Nodup ∧
    ∀ lookup ∈ linked.file.lookups, ∀ other ∈ linked.file.lookups, other ≠ lookup →
      ∀ place, lookup.2.optionsPath lookup.1 <+: place →
        Ignores (linked.context files id).scope other place := by
  have hparts := linked.lowersParts_of_lower hlower
  obtain ⟨services, hnormal, hservices⟩ := exists_raw_services hparts.services
  refine ⟨⟨services, hnormal, finds_file hparts hservices, ?_⟩, linked.file.lookups_iff, ?_, ?_,
    ?_⟩
  · exact hservices.imp fun _ _ h => h.templates
  · exact fun lookup hlookup => File.at?_of_mem_lookups hlookup
  · exact List.pairwise_map.mpr linked.file.pairwise_lookups
  · intro lookup hlookup other hother hne place hplace
    exact linked.file.ignores_of_ne _ hlookup hother hne hplace

/-! ## Fields out of order -/

def sampleNote (text : String) : Option OptionSet :=
  some ⟨[(⟨50307, "note", some ⟨"note", "o.note", "o.proto"⟩⟩, .string text)], []⟩

def swappedFile : File :=
  let string : FieldType := .single (.scalar .string)
  let fields := [
    { sampleField "b" 2 .optional string with options := sampleNote "two" },
    { sampleField "a" 1 .optional string with options := sampleNote "one" }]
  { sampleFile with
    messages := [sampleMessage "M" "M" fields [] []]
    locations := [⟨[4, 0, 2, 0, 8, 50307], some " @embed one.bin\n", none⟩] }

def swappedLinked : Linked := ⟨⟨[swappedFile]⟩, swappedFile, ""⟩

def swappedFiles : FileTree := ⟨[], [(["one.bin"], .file [42])]⟩

theorem sampleFile_declaredByNumber : sampleFile.DeclaredByNumber :=
  ⟨List.map_inj_left.mp rfl, List.map_inj_left.mp rfl⟩

theorem swappedFile_not_declaredByNumber : ¬ swappedFile.DeclaredByNumber := by
  intro h
  have hnumbers : ∀ declared ∈ Lowering.messagesOf swappedFile,
      declared.2.info.fieldsByNumber.map (·.number) =
        declared.2.info.fields.map (·.number) := by
    intro declared hdeclared
    rw [h.fields declared hdeclared]
  revert hnumbers
  decide

def noteOf (options : OptionMap) : Option Scalar :=
  match Table.get? options "Note" with
  | some (OptionValue.scalar note) => some note
  | _ => none

def fieldNotes (lowered : Ast.File) : List (String × Option Scalar) :=
  (lowered.messages.flatMap (·.fields)).map fun field => (field.protoName, noteOf field.options)

/-- Of two files, the lookups of one go where the elements are; in the other, the file that is
embedded for the field `b` ends up in the options of `a`. -/
theorem Linked.lower_lookups_own_iff_samples :
    (∃ lowered, sampleLinked.lower (.empty []) 0 = .ok lowered ∧
      ∀ lookup ∈ sampleFile.lookups,
        (Element.file sampleFile).at? lookup.1 = some lookup.2) ∧
    ∃ lowered, swappedLinked.lower swappedFiles 0 = .ok lowered ∧
      fieldNotes lowered =
        [("a", some (.literal (byteLiteral [42]))), ("b", some (.string "two"))] ∧
      ¬ ∀ lookup ∈ swappedFile.lookups,
        (Element.file swappedFile).at? lookup.1 = some lookup.2 := by
  constructor
  · obtain ⟨lowered, hlower⟩ : ∃ lowered, sampleLinked.lower (.empty []) 0 = .ok lowered :=
      Linked.exists_lowered (by decide +kernel)
    have hown := (sampleLinked.lower_lookups_own_iff (.empty []) 0 lowered hlower).2.1
    exact ⟨lowered, hlower, hown.mpr sampleFile_declaredByNumber⟩
  · have hrun : (swappedLinked.lower swappedFiles 0).toOption.map fieldNotes =
        some [("a", some (.literal (byteLiteral [42]))), ("b", some (.string "two"))] := by
      decide +kernel
    obtain ⟨lowered, hlower, hnotes⟩ := exists_eq_ok_of_map hrun
    have hown := (swappedLinked.lower_lookups_own_iff swappedFiles 0 lowered hlower).2.1
    exact ⟨lowered, hlower, hnotes, fun h => swappedFile_not_declaredByNumber (hown.mp h)⟩

end Schema

end SchemaGo
