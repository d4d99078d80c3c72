import SchemaGo.Proofs.Schema.Loading
import SchemaGo.Proofs.Schema.Symbols

/-!
# References of linked files

A linked file has the types that it declares, and its fields refer to types that are defined.  So
the types of a file have different full names, and a field that refers to its own file refers to one
of them.
-/

namespace SchemaGo.Schema

/-! ## Types and references -/

/-- What a field refers to: its type, and for a map the type of its values as well. -/
def FieldType.held : FieldType → List ElementType
  | .single type => [type]
  | .map entry => [entry.element, entry.value.type]

def ElementType.named? : ElementType → Option TypeRef
  | .enum type | .message type => some type
  | .scalar _ | .group _ => none

def Field.named? (field : Field) : Option TypeRef :=
  match field.type with
  | .single type => type.named?
  | .map entry => entry.value.type.named?

theorem Field.exists_held_of_named? {field : Field} {type : TypeRef}
    (h : field.named? = some type) : ∃ element ∈ field.type.held, element.named? = some type := by
  rw [named?] at h
  cases hfield : field.type with
  | single element =>
      rw [hfield] at h
      exact ⟨element, List.mem_singleton.mpr rfl, h⟩
  | map entry =>
      rw [hfield] at h
      exact ⟨entry.value.type, by simp [FieldType.held], h⟩

def Enum.names (enum : Enum) : String × String := (enum.name, enum.fullName)

def MessageInfo.types (info : MessageInfo) : List (String × String) :=
  (info.name, info.fullName) :: info.enums.map Enum.names

def File.types (file : File) : List (String × String) :=
  file.allMessages.flatMap (·.types) ++ file.enums.map Enum.names

/-! ## Linked declarations -/

section

variable {ctx : LinkContext} {around : String} {path : SourcePath}

def ElementType.IsKnown (symbols : Symbols) (element : ElementType) : Prop :=
  ∀ type, element.named? = some type → type.IsKnown symbols

theorem isKnown_of_elementType {decl : BaseDecl} {element : ElementType}
    (h : Yields (elementType ctx around decl) element) : element.IsKnown ctx.scope.symbols := by
  intro type htype
  cases decl with
  | scalar kind =>
      rw [h.of_pure] at htype
      cases htype
  | named name =>
      obtain ⟨⟨found, kind⟩, hfound, h⟩ := Yields.of_bind h
      have hknown := Scope.isKnown_of_resolveType hfound.of_lift
      have hsame : element.named? = some found := by
        rw [h.of_pure]
        split <;> rfl
      rw [hsame] at htype
      exact Option.some.inj htype ▸ hknown

theorem isKnown_of_fieldType {decl : FieldDecl} {fieldType : FieldType}
    (h : Yields (Schema.fieldType ctx around decl) fieldType) :
    ∀ element ∈ fieldType.held, element.IsKnown ctx.scope.symbols := by
  rw [Schema.fieldType] at h
  split at h
  · obtain ⟨element, helement, h⟩ := h.of_bind
    rw [h.of_pure]
    exact List.forall_mem_singleton.mpr (isKnown_of_elementType helement)
  · rw [h.of_pure]
    exact List.forall_mem_singleton.mpr nofun
  · obtain ⟨_, -, h⟩ := Yields.of_bind h
    obtain ⟨element, helement, h⟩ := h.of_bind
    rw [h.of_pure]
    exact List.forall_mem_singleton.mpr (isKnown_of_elementType helement)

def Refers (symbols : Symbols) (fields : List Field) : Prop :=
  ∀ field ∈ fields, ∀ element ∈ field.type.held, element.IsKnown symbols

theorem isKnown_of_linkField {oneof : Option Nat} {decl : FieldDecl} {field : Field}
    (h : Yields (linkField ctx around path oneof decl) field) :
    ∀ element ∈ field.type.held, element.IsKnown ctx.scope.symbols := by
  obtain ⟨_, -, h⟩ := Yields.of_bind h
  obtain ⟨_, -, h⟩ := h.of_bind
  obtain ⟨fieldType, hfieldType, h⟩ := h.of_bind
  obtain ⟨_, -, h⟩ := h.of_bind
  obtain ⟨_, -, h⟩ := h.of_bind
  obtain ⟨_, -, h⟩ := h.of_bind
  rw [h.of_pure]
  exact isKnown_of_fieldType hfieldType

theorem refers_of_linkFields {isMapEntry : Bool} {index next : Nat} {decls : List FieldDecl}
    {fields : List Field}
    (h : Yields (linkFields ctx around path isMapEntry index next decls) fields) :
    Refers ctx.scope.symbols fields := by
  induction decls generalizing index next fields with
  | nil =>
      rw [h.of_pure]
      intro field hfield
      cases hfield
  | cons decl rest ih =>
      rw [linkFields] at h
      obtain ⟨field, hfield, h⟩ := Yields.of_bind h
      obtain ⟨fields, hfields, h⟩ := h.of_bind
      rw [h.of_pure]
      have hknown := isKnown_of_linkField hfield
      refine List.forall_mem_cons.mpr ⟨?_, ih hfields⟩
      split
      · exact hknown
      · exact hknown

theorem names_of_linkEnum {decl : EnumDecl} {enum : Enum}
    (h : Yields (linkEnum ctx around path decl) enum) :
    enum.names = (decl.name, qualify around decl.name) := by
  obtain ⟨_, -, h⟩ := Yields.of_bind h
  obtain ⟨_, -, h⟩ := h.of_bind
  obtain ⟨_, -, h⟩ := h.of_bind
  obtain ⟨_, -, h⟩ := h.of_bind
  obtain ⟨_, -, h⟩ := h.of_bind
  rw [h.of_pure]
  rfl

theorem names_of_linkEnums {index : Nat} {decls : List EnumDecl} {enums : List Enum}
    (h : Yields (linkEnums ctx around path index decls) enums) :
    enums.map Enum.names = decls.map fun decl => (decl.name, qualify around decl.name) := by
  induction decls generalizing index enums with
  | nil =>
      rw [h.of_pure]
      rfl
  | cons decl rest ih =>
      rw [linkEnums] at h
      obtain ⟨enum, henum, h⟩ := Yields.of_bind h
      obtain ⟨enums, henums, h⟩ := h.of_bind
      rw [h.of_pure, List.map_cons, List.map_cons, names_of_linkEnum henum, ih henums]

structure LinksParts (symbols : Symbols) (declared : String × MessageParts) (info : MessageInfo) :
    Prop where
  types : info.types = ownTypes declared
  isMapEntry : info.isMapEntry = declared.2.declaresEntry
  refers : Refers symbols info.fields

theorem linksParts_of_linkParts {parts : MessageParts} {info : MessageInfo}
    (h : Yields (linkParts ctx around path parts) info) :
    LinksParts ctx.scope.symbols (around, parts) info := by
  obtain ⟨_, -, h⟩ := Yields.of_bind h
  obtain ⟨_, -, h⟩ := h.of_bind
  obtain ⟨fields, hfields, h⟩ := h.of_bind
  obtain ⟨_, -, h⟩ := h.of_bind
  obtain ⟨enums, henums, h⟩ := h.of_bind
  obtain ⟨_, -, h⟩ := h.of_bind
  obtain ⟨_, -, h⟩ := h.of_bind
  obtain ⟨_, -, h⟩ := h.of_bind
  obtain ⟨_, -, h⟩ := h.of_bind
  rw [h.of_pure]
  refine ⟨?_, rfl, refers_of_linkFields hfields⟩
  rw [MessageInfo.types, names_of_linkEnums henums]
  rfl

mutual

theorem linksParts_of_linkMessage (ctx : LinkContext) (around : String) (path : SourcePath)
    (decl : MessageDecl) {message : Message}
    (h : Yields (linkMessage ctx around path decl) message) :
    List.Forall₂ (LinksParts ctx.scope.symbols) (decl.flatten around) message.flatten := by
  cases decl with
  | mk parts nested =>
      rw [linkMessage] at h
      obtain ⟨info, hinfo, h⟩ := Yields.of_bind h
      obtain ⟨messages, hmessages, h⟩ := h.of_bind
      rw [h.of_pure, MessageDecl.flatten, Message.flatten]
      exact .cons (linksParts_of_linkParts hinfo)
        (linksParts_of_linkMessages ctx _ _ _ nested hmessages)
termination_by structural decl

theorem linksParts_of_linkMessages (ctx : LinkContext) (around : String) (path : SourcePath)
    (index : Nat) (decls : List MessageDecl) {messages : List Message}
    (h : Yields (linkMessages ctx around path index decls) messages) :
    List.Forall₂ (LinksParts ctx.scope.symbols) (flattenDecls around decls)
      (flattenAll messages) := by
  cases decls with
  | nil =>
      rw [h.of_pure]
      exact .nil
  | cons decl rest =>
      rw [linkMessages] at h
      obtain ⟨message, hmessage, h⟩ := Yields.of_bind h
      obtain ⟨messages, hmessages, h⟩ := h.of_bind
      rw [h.of_pure, flattenDecls, flattenAll]
      exact List.rel_append (linksParts_of_linkMessage ctx _ _ decl hmessage)
        (linksParts_of_linkMessages ctx _ _ _ rest hmessages)
termination_by structural decls

end

end

structure LinksFile (symbols : Symbols) (decl : FileDecl) (file : File) : Prop where
  messages : List.Forall₂ (LinksParts symbols) (flattenDecls decl.packageName decl.messages)
    file.allMessages
  enums : file.enums.map Enum.names =
    decl.enums.map fun enum => (enum.name, qualify decl.packageName enum.name)

theorem linksFile_of_linkDeclarations {ctx : LinkContext} {decl : FileDecl} {file : File}
    (h : Yields (linkDeclarations ctx decl) file) : LinksFile ctx.scope.symbols decl file := by
  obtain ⟨hmessages, henums, -, -⟩ := linkDeclarations_inv h
  exact ⟨linksParts_of_linkMessages _ _ _ _ _ hmessages, names_of_linkEnums henums⟩

theorem LinksFile.types_eq {symbols : Symbols} {decl : FileDecl} {file : File}
    (h : LinksFile symbols decl file) : file.types = decl.types := by
  have hsame : ∀ {declared : List (String × MessageParts)} {infos : List MessageInfo},
      List.Forall₂ (LinksParts symbols) declared infos →
      infos.flatMap (·.types) = declared.flatMap ownTypes := by
    intro declared infos hlinks
    induction hlinks with
    | nil => rfl
    | cons hparts _ ih => rw [List.flatMap_cons, List.flatMap_cons, hparts.types, ih]
  rw [File.types, FileDecl.types, hsame h.messages, h.enums]

/-! ## Entries of maps -/

mutual

theorem flatten_mapFields (f : Field → Field) (message : Message) :
    (message.mapFields f).flatten = message.flatten.map (·.mapFields f) := by
  cases message with
  | mk info nested =>
      rw [Message.mapFields, Message.flatten, Message.flatten, List.map_cons,
        flattenAll_mapFields f nested]
termination_by structural message

theorem flattenAll_mapFields (f : Field → Field) (messages : List Message) :
    flattenAll (mapFieldsAll f messages) = (flattenAll messages).map (·.mapFields f) := by
  cases messages with
  | nil => rfl
  | cons message rest =>
      rw [mapFieldsAll, flattenAll, flattenAll, List.map_append, flatten_mapFields f message,
        flattenAll_mapFields f rest]
termination_by structural messages

end

theorem allMessages_mapFields (f : Field → Field) (file : File) :
    (file.mapFields f).allMessages = file.allMessages.map (·.mapFields f) :=
  flattenAll_mapFields f file.messages

theorem types_mapFields (f : Field → Field) (file : File) :
    (file.mapFields f).types = file.types := by
  rw [File.types, allMessages_mapFields, List.flatMap_map]
  rfl

def File.Refers (symbols : Symbols) (file : File) : Prop :=
  ∀ info ∈ file.allMessages, Schema.Refers symbols info.fields

def Pool.EntriesRefer (symbols : Symbols) (pool : Pool) : Prop :=
  ∀ file ∈ pool.files, ∀ info ∈ file.allMessages, info.isMapEntry → Refers symbols info.fields

theorem mem_of_message? {pool : Pool} {fullName : String} {info : MessageInfo}
    (h : pool.message? fullName = some info) : ∃ file ∈ pool.files, info ∈ file.allMessages := by
  obtain ⟨file, hfile, hinfo⟩ := List.exists_of_findSome?_eq_some h
  exact ⟨file, hfile, List.mem_of_find?_eq_some hinfo⟩

theorem mapEntry?_inv {pool : Pool} {type : TypeRef} {isGroup : Bool} {entry : MapEntry}
    (h : pool.mapEntry? type isGroup = some entry) :
    ∃ info, pool.message? type.fullName = some info ∧ info.isMapEntry ∧
      entry.type = type ∧ entry.isGroup = isGroup ∧
      ∃ part ∈ info.fields, entry.value.type = part.type.element := by
  obtain ⟨info, hinfo, h⟩ := Option.bind_eq_some_iff.mp h
  dsimp only at h
  split at h
  · rename_i hentry _ hvalue
    cases h
    obtain ⟨part, hpart, rfl⟩ := Option.map_eq_some_iff.mp hvalue
    exact ⟨info, hinfo, hentry, rfl, rfl, part, List.mem_of_find?_eq_some hpart, rfl⟩
  · cases h

theorem withEntry_inv (pool : Pool) (field : Field) :
    field.withEntry pool = field ∨ ∃ entry, (field.withEntry pool).type = .map entry ∧
      field.type = .single entry.element ∧
      pool.mapEntry? entry.type entry.isGroup = some entry := by
  rw [Field.withEntry.eq_def]
  dsimp only
  split
  · rename_i entry _ hfound
    refine .inr ⟨entry, rfl, ?_⟩
    split at hfound
    · rename_i type htype
      obtain ⟨-, -, -, rfl, hgroup, -⟩ := mapEntry?_inv hfound
      rw [htype, MapEntry.element, hgroup, hfound]
      exact ⟨rfl, rfl⟩
    · rename_i type htype
      obtain ⟨-, -, -, rfl, hgroup, -⟩ := mapEntry?_inv hfound
      rw [htype, MapEntry.element, hgroup, hfound]
      exact ⟨rfl, rfl⟩
    · cases hfound
  · exact .inl rfl

theorem FieldType.element_mem_held (type : FieldType) : type.element ∈ type.held := by
  cases type with
  | single type => exact List.mem_singleton.mpr rfl
  | map entry => exact List.mem_cons_self

theorem isKnown_of_withEntry {symbols : Symbols} {pool : Pool} (hpool : pool.EntriesRefer symbols)
    {field : Field} (h : ∀ element ∈ field.type.held, element.IsKnown symbols) :
    ∀ element ∈ (field.withEntry pool).type.held, element.IsKnown symbols := by
  rcases withEntry_inv pool field with hsame | ⟨entry, hmap, hsingle, hentry⟩
  · rwa [hsame]
  · obtain ⟨info, hinfo, hmarked, -, -, part, hpart, hvalue⟩ := mapEntry?_inv hentry
    obtain ⟨file, hfile, hmember⟩ := mem_of_message? hinfo
    have hvalueKnown := hpool file hfile info hmember hmarked part hpart _
      part.type.element_mem_held
    rw [hsingle] at h
    rw [hmap]
    refine List.forall_mem_cons.mpr ⟨h _ (List.mem_singleton.mpr rfl), ?_⟩
    exact List.forall_mem_singleton.mpr (hvalue ▸ hvalueKnown)

theorem File.Refers.mapFields {symbols : Symbols} {file : File} (h : file.Refers symbols)
    {pool : Pool} (hpool : pool.EntriesRefer symbols) :
    (file.mapFields (Field.withEntry pool)).Refers symbols := by
  intro info hinfo field hfield
  rw [allMessages_mapFields] at hinfo
  obtain ⟨declared, hdeclared, rfl⟩ := List.mem_map.mp hinfo
  obtain ⟨plain, hplain, rfl⟩ := List.mem_map.mp hfield
  exact isKnown_of_withEntry hpool (h declared hdeclared plain hplain)

theorem LinksFile.refers {symbols : Symbols} {decl : FileDecl} {file : File}
    (h : LinksFile symbols decl file) : file.Refers symbols := by
  intro info hinfo
  obtain ⟨declared, -, hlinks⟩ := exists_of_mem_right h.messages hinfo
  exact hlinks.refers

theorem entriesRefer_outlinePool {symbols : Symbols} {builtin : List File} {pool : Pool}
    {outline : File}
    (hbuiltin : ∀ file ∈ builtin, ∀ info ∈ file.allMessages, info.isMapEntry = false)
    (hpool : ∀ file ∈ pool.files, file.Refers symbols) (houtline : outline.Refers symbols) :
    (outlinePool builtin pool outline).EntriesRefer symbols := by
  intro file hfile info hinfo hentry
  simp only [outlinePool, List.mem_append, List.mem_singleton] at hfile
  obtain (hfile | rfl) | hfile := hfile
  · exact hpool file hfile info hinfo
  · exact houtline info hinfo
  · simp [hbuiltin file hfile info hinfo] at hentry

theorem refers_of_linkFile {builtin : List File} {pool : Pool} {scope : Scope} {name : String}
    {decl : FileDecl} {file : File} (h : linkFile builtin pool scope name decl = .ok file)
    (hbuiltin : ∀ file ∈ builtin, ∀ info ∈ file.allMessages, info.isMapEntry = false)
    (hpool : ∀ file ∈ pool.files, file.Refers scope.symbols) :
    file.types = decl.types ∧ file.Refers scope.symbols := by
  obtain ⟨readOptions, linked, outline, locations, hlinked, houtline, rfl⟩ := linkFile_inv h
  have hlinks := linksFile_of_linkDeclarations hlinked
  have houtlineRefers := (linksFile_of_linkDeclarations houtline).refers
  refine ⟨(types_mapFields _ linked).trans hlinks.types_eq, ?_⟩
  have hentries := entriesRefer_outlinePool hbuiltin hpool houtlineRefers
  exact hlinks.refers.mapFields
    (entriesRefer_outlinePool hbuiltin hpool (houtlineRefers.mapFields hentries))

/-! ## The description of schemas -/

theorem declaresEntry_descriptor :
    AllParts (fun parts => parts.declaresEntry = false) Bundled.descriptor.messages := by
  have hother : AllParts (fun parts => parts.declaresEntry = false) Bundled.otherMessages :=
    AllParts.of_scope "" (by decide +kernel)
  exact (Bundled.allParts_metaMessages fun _ _ _ _ => rfl).append hother

theorem not_isMapEntry_of_linkFile {builtin : List File} {pool : Pool} {scope : Scope}
    {name : String} {decl : FileDecl} {file : File}
    (h : linkFile builtin pool scope name decl = .ok file)
    (hdecl : AllParts (fun parts => parts.declaresEntry = false) decl.messages) :
    ∀ info ∈ file.allMessages, info.isMapEntry = false := by
  obtain ⟨readOptions, linked, outline, locations, hlinked, -, rfl⟩ := linkFile_inv h
  have hlinks := (linksFile_of_linkDeclarations hlinked).messages
  intro info hinfo
  have hmapped : info ∈ linked.allMessages.map _ := (allMessages_mapFields _ linked) ▸ hinfo
  obtain ⟨plain, hplain, rfl⟩ := List.mem_map.mp hmapped
  obtain ⟨declared, hdeclared, hparts⟩ := exists_of_mem_right hlinks hplain
  exact hparts.isMapEntry.trans (hdecl _ declared hdeclared)

theorem not_isMapEntry_linkAlone {name : String} {decl : FileDecl}
    (hdecl : AllParts (fun parts => parts.declaresEntry = false) decl.messages) :
    ∀ file ∈ linkAlone name decl, ∀ info ∈ file.allMessages, info.isMapEntry = false := by
  intro file hfile
  rw [linkAlone] at hfile
  split at hfile
  · cases hfile
  · split at hfile
    · rename_i hlink
      exact List.mem_singleton.mp hfile ▸ not_isMapEntry_of_linkFile hlink hdecl
    · cases hfile

theorem not_isMapEntry_builtinDescriptor :
    ∀ file ∈ builtinDescriptor, ∀ info ∈ file.allMessages, info.isMapEntry = false :=
  not_isMapEntry_linkAlone declaresEntry_descriptor

/-! ## Loaded files -/

/-- The definitions of a file are its types and what belongs to them: the full names of the types
are different, end in the simple names, and are all the names of types that the definitions give to
the file. -/
structure File.Declares (symbols : Symbols) (file : File) : Prop where
  simple : ∀ type ∈ file.types, Text.afterLast '.' type.2 = type.1
  distinct : (file.types.map (·.2)).Nodup
  complete : ∀ entry ∈ symbols, entry.2.file = file.name → entry.2.kind.isType →
    entry.1 ∈ file.types.map (·.2)

/-- The known definitions are those of the loaded files, which refer to nothing else. -/
structure Loaded.Sound (loaded : Loaded) : Prop where
  owned : ∀ entry ∈ loaded.symbols, loaded.Has entry.2.file
  declares : ∀ file ∈ loaded.pool.files, file.Declares loaded.symbols
  refers : ∀ file ∈ loaded.pool.files, file.Refers loaded.symbols

theorem Loaded.sound_empty : Loaded.empty.Sound :=
  ⟨nofun, nofun, nofun⟩

theorem File.Refers.mono {symbols symbols' : Symbols} {file : File} (h : file.Refers symbols)
    (hsubset : symbols ⊆ symbols') : file.Refers symbols' :=
  fun info hinfo field hfield element helement type htype =>
    (h info hinfo field hfield element helement type htype).mono hsubset

theorem File.Declares.of_addSymbols {known symbols : Symbols} {name : String} {decl : FileDecl}
    {file : File} (h : file.Declares known) (hname : file.name ≠ name)
    (hsymbols : addSymbols known (decl.symbols name) = .ok symbols) : file.Declares symbols := by
  refine ⟨h.simple, h.distinct, fun entry hentry hfile hkind => ?_⟩
  obtain hknown | hnew := mem_or_mem_of_addSymbols hsymbols hentry
  · exact h.complete entry hknown hfile hkind
  · exact absurd (hfile.symm.trans (inFile_symbols name decl entry hnew)) hname

theorem File.declares_of_addSymbols {known symbols : Symbols} {decl : FileDecl} {file : File}
    (hsimple : decl.IsSimple) (htypes : file.types = decl.types)
    (hfresh : ∀ entry ∈ known, entry.2.file ≠ file.name)
    (hsymbols : addSymbols known (decl.symbols file.name) = .ok symbols) :
    file.Declares symbols := by
  constructor
  · intro type htype
    exact afterLast_of_mem_types hsimple (htypes ▸ htype)
  · rw [htypes, ← typeNames_symbols file.name]
    exact (nodup_typeNames_of_addSymbols hsymbols).1
  · intro entry hentry hfile hkind
    rw [htypes, ← typeNames_symbols file.name]
    obtain hknown | hnew := mem_or_mem_of_addSymbols hsymbols hentry
    · exact absurd hfile (hfresh entry hknown)
    · exact List.mem_map_of_mem (List.mem_filter.mpr ⟨hnew, hkind⟩)

theorem Loaded.Sound.add {loaded next : Loaded} {name : String} {decl : FileDecl}
    (h : loaded.Sound) (hsimple : decl.IsSimple) (hfresh : ¬ loaded.Has name)
    (hadd : loaded.add name decl = .ok next) : next.Sound := by
  have hhas := Loaded.has_add hadd
  obtain ⟨symbols, file, hsymbols, hlink, rfl⟩ := Loaded.add_inv hadd
  obtain ⟨rfl, -⟩ := imports_of_linkFile hlink
  have hsubset := subset_of_addSymbols hsymbols
  have hbefore : ∀ other ∈ loaded.pool.files, other.Refers symbols :=
    fun other hother => (h.refers other hother).mono hsubset
  obtain ⟨htypes, hrefers⟩ := refers_of_linkFile hlink not_isMapEntry_builtinDescriptor hbefore
  constructor
  · intro entry hentry
    refine (hhas entry.2.file).mpr ?_
    exact (mem_or_mem_of_addSymbols hsymbols hentry).imp (h.owned entry)
      (inFile_symbols file.name decl entry)
  · refine List.forall_mem_append.mpr ⟨fun other hother => ?_, List.forall_mem_singleton.mpr ?_⟩
    · exact (h.declares other hother).of_addSymbols (fun hsame => hfresh ⟨other, hother, hsame⟩)
        hsymbols
    · refine File.declares_of_addSymbols hsimple htypes (fun entry hentry hsame => ?_) hsymbols
      exact hfresh (hsame ▸ h.owned entry hentry)
  · exact List.forall_mem_append.mpr ⟨hbefore, List.forall_mem_singleton.mpr hrefers⟩

theorem Adds.sound {source : String → FileDecl → Prop} {start next : Loaded}
    (h : Adds source start next) (hsource : ∀ name decl, source name decl → decl.IsSimple)
    (hstart : start.Sound) : next.Sound := by
  induction h with
  | refl => exact hstart
  | add _ hdeclared hfresh _ hstep ih => exact ih.add (hsource _ _ hdeclared) hfresh hstep

/-- The types of a file have different full names, and what a field says is declared in the file is
declared there. -/
structure File.ResolvesOwn (file : File) : Prop where
  distinct : (file.types.map (·.2)).Nodup
  declared : ∀ info ∈ file.allMessages, ∀ field ∈ info.fields, ∀ type, field.named? = some type →
    type.file = file.name → (type.name, type.fullName) ∈ file.types

theorem resolvesOwn_of_link {files : FileTree} {includeDirectory path : String} {linked : Linked}
    (h : link files includeDirectory path = .ok linked) : linked.file.ResolvesOwn := by
  obtain ⟨loaded, hadds, -, hfile⟩ := adds_of_link h
  have hsound := hadds.sound (fun _ _ => isSimple_of_readDeclarations) Loaded.sound_empty
  have hdeclares := hsound.declares linked.file hfile
  refine ⟨hdeclares.distinct, fun info hinfo field hfield type htype hown => ?_⟩
  obtain ⟨element, helement, hnamed⟩ := Field.exists_held_of_named? htype
  obtain ⟨hname, kind, hdefined, hkind⟩ :=
    hsound.refers linked.file hfile info hinfo field hfield element helement type hnamed
  obtain ⟨found, hfound, hsame⟩ :=
    List.mem_map.mp (hdeclares.complete _ hdefined hown hkind)
  have hfoundType : found = (type.name, type.fullName) := by
    refine Prod.ext ?_ hsame
    rw [← hdeclares.simple found hfound, hsame, hname]
  exact hfoundType ▸ hfound

end SchemaGo.Schema
