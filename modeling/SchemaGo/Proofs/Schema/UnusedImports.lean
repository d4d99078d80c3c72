import SchemaGo.Proofs.Table
import SchemaGo.Schema.Uses

/-!
# Imports that nothing mentions

A file mentions a definition by the type of a field or a method, by what it
extends and by the custom options it sets.  The search for unused imports goes
through all these places but three: the options of extension fields, of oneofs
and of enum values.  So an import is reported wrongly exactly if it is mentioned
in such places only.
-/

namespace SchemaGo.Schema

/-! ## What a file holds -/

inductive File.HasMessage (file : File) : Message → Prop
  | top {message : Message} (hmem : message ∈ file.messages) : HasMessage file message
  | nested {outer message : Message} (houter : HasMessage file outer)
      (hmem : message ∈ outer.nested) : HasMessage file message

inductive File.HasExtension (file : File) : Extension → Prop
  | top {extension : Extension} (hmem : extension ∈ file.extensions) : HasExtension file extension
  | nested {outer : Message} {extension : Extension} (houter : file.HasMessage outer)
      (hmem : extension ∈ outer.info.extensions) : HasExtension file extension

inductive File.HasEnum (file : File) : Enum → Prop
  | top {enum : Enum} (hmem : enum ∈ file.enums) : HasEnum file enum
  | nested {outer : Message} {enum : Enum} (houter : file.HasMessage outer)
      (hmem : enum ∈ outer.info.enums) : HasEnum file enum

/-! ## Mentions -/

/-- Where a file can mention a definition. -/
inductive MentionPlace where
  | fieldType
  | extensionType
  | extendee
  | methodType
  | fileOption
  | messageOption
  | fieldOption
  | extensionOption
  | oneofOption
  | enumOption
  | valueOption
  | serviceOption
  | methodOption
deriving DecidableEq, Repr

def MentionPlace.isOverlooked : MentionPlace → Bool
  | .extensionOption | .oneofOption | .valueOption => true
  | _ => false

def FieldType.definition? : FieldType → Option TypeRef
  | .single (.scalar _) => none
  | .single (.enum type) | .single (.message type) | .single (.group type) => some type
  | .map entry => some entry.type

def SetsCustom (options : Option OptionSet) (extension : TypeRef) : Prop :=
  ∃ set number value, options = some set ∧ (extension, number, value) ∈ set.custom

inductive File.Mentions (file : File) : MentionPlace → TypeRef → Prop
  | fieldType {message : Message} {field : Field} {type : TypeRef}
      (hmessage : file.HasMessage message) (hfield : field ∈ message.info.fields)
      (htype : field.type.definition? = some type) : Mentions file .fieldType type
  | extensionType {extension : Extension} {type : TypeRef}
      (hextension : file.HasExtension extension)
      (htype : extension.field.type.definition? = some type) : Mentions file .extensionType type
  | extendee {extension : Extension} (hextension : file.HasExtension extension) :
      Mentions file .extendee extension.extendee
  | input {service : Service} {method : Method} (hservice : service ∈ file.services)
      (hmethod : method ∈ service.methods) : Mentions file .methodType method.input
  | output {service : Service} {method : Method} (hservice : service ∈ file.services)
      (hmethod : method ∈ service.methods) : Mentions file .methodType method.output
  | fileOption {extension : TypeRef} (hset : SetsCustom file.options extension) :
      Mentions file .fileOption extension
  | messageOption {message : Message} {extension : TypeRef} (hmessage : file.HasMessage message)
      (hset : SetsCustom message.info.options extension) : Mentions file .messageOption extension
  | fieldOption {message : Message} {field : Field} {extension : TypeRef}
      (hmessage : file.HasMessage message) (hfield : field ∈ message.info.fields)
      (hset : SetsCustom field.options extension) : Mentions file .fieldOption extension
  | extensionOption {declared : Extension} {extension : TypeRef}
      (hdeclared : file.HasExtension declared)
      (hset : SetsCustom declared.field.options extension) :
      Mentions file .extensionOption extension
  | oneofOption {message : Message} {oneof : Oneof} {extension : TypeRef}
      (hmessage : file.HasMessage message) (honeof : oneof ∈ message.info.oneofs)
      (hset : SetsCustom oneof.options extension) : Mentions file .oneofOption extension
  | enumOption {enum : Enum} {extension : TypeRef} (henum : file.HasEnum enum)
      (hset : SetsCustom enum.options extension) : Mentions file .enumOption extension
  | valueOption {enum : Enum} {value : EnumValue} {extension : TypeRef}
      (henum : file.HasEnum enum) (hvalue : value ∈ enum.values)
      (hset : SetsCustom value.options extension) : Mentions file .valueOption extension
  | serviceOption {service : Service} {extension : TypeRef} (hservice : service ∈ file.services)
      (hset : SetsCustom service.options extension) : Mentions file .serviceOption extension
  | methodOption {service : Service} {method : Method} {extension : TypeRef}
      (hservice : service ∈ file.services) (hmethod : method ∈ service.methods)
      (hset : SetsCustom method.options extension) : Mentions file .methodOption extension

def File.ImportsForItself (file : File) (name : String) : Prop :=
  ∃ declared ∈ file.imports, declared.name = name ∧ declared.kind ≠ .forward

/-! ## Uses are mentions -/

theorem mem_optionUses {options : Option OptionSet} {name : String} :
    name ∈ optionUses options ↔
      ∃ extension, SetsCustom options extension ∧ extension.file = name := by
  cases options with
  | none => simp [optionUses, SetsCustom]
  | some set =>
      simp only [optionUses, SetsCustom, List.mem_map, Option.some.injEq]
      constructor
      · rintro ⟨⟨extension, number, value⟩, hmem, rfl⟩
        exact ⟨extension, ⟨set, number, value, rfl, hmem⟩, rfl⟩
      · rintro ⟨extension, ⟨_, number, value, rfl, hmem⟩, rfl⟩
        exact ⟨_, hmem, rfl⟩

theorem mem_typeUses {type : FieldType} {name : String} :
    name ∈ typeUses type ↔ ∃ found, type.definition? = some found ∧ found.file = name := by
  have hdefinition : type.element.definition? = type.definition? := by
    cases type with
    | single type => cases type <;> rfl
    | map entry =>
        rw [FieldType.element, MapEntry.element]
        split <;> rfl
  rw [typeUses, hdefinition]
  cases type.definition? <;> simp [eq_comm]

theorem flatten_subset_flattenAll {message : Message} {messages : List Message}
    (h : message ∈ messages) : message.flatten ⊆ flattenAll messages := by
  induction messages with
  | nil => cases h
  | cons first rest ih =>
      rw [flattenAll]
      rcases List.mem_cons.mp h with rfl | h
      · exact List.subset_append_left _ _
      · exact List.Subset.trans (ih h) (List.subset_append_right _ _)

theorem File.HasMessage.flatten_subset {file : File} {message : Message}
    (h : file.HasMessage message) : message.flatten ⊆ file.allMessages := by
  induction h with
  | top hmem => exact flatten_subset_flattenAll hmem
  | @nested outer message _ hmem ih =>
      cases outer with
      | mk info nested =>
          rw [Message.flatten] at ih
          exact List.Subset.trans (flatten_subset_flattenAll hmem) (List.subset_of_cons_subset ih)

mutual

theorem Message.exists_of_mem_flatten {file : File} {info : MessageInfo} (message : Message)
    (hmessage : file.HasMessage message) (h : info ∈ message.flatten) :
    ∃ found, file.HasMessage found ∧ found.info = info := by
  cases message with
  | mk own nested =>
      rw [Message.flatten] at h
      rcases List.mem_cons.mp h with rfl | h
      · exact ⟨_, hmessage, rfl⟩
      · exact exists_of_mem_flattenAll nested (fun _ hmem => .nested hmessage hmem) h
termination_by structural message

theorem exists_of_mem_flattenAll {file : File} {info : MessageInfo} (messages : List Message)
    (hall : ∀ message ∈ messages, file.HasMessage message) (h : info ∈ flattenAll messages) :
    ∃ found, file.HasMessage found ∧ found.info = info := by
  cases messages with
  | nil => cases h
  | cons first rest =>
      rw [flattenAll] at h
      rcases List.mem_append.mp h with h | h
      · exact Message.exists_of_mem_flatten first (hall first List.mem_cons_self) h
      · exact exists_of_mem_flattenAll rest
          (fun message hmem => hall message (List.mem_cons_of_mem _ hmem)) h
termination_by structural messages

end

theorem File.mem_allMessages_iff {file : File} {info : MessageInfo} :
    info ∈ file.allMessages ↔ ∃ message, file.HasMessage message ∧ message.info = info := by
  constructor
  · exact exists_of_mem_flattenAll file.messages fun _ hmem => .top hmem
  · rintro ⟨message, hmessage, rfl⟩
    refine hmessage.flatten_subset ?_
    cases message with
    | mk info nested => exact List.mem_cons_self

theorem File.mem_uses_iff {file : File} {name : String} :
    name ∈ file.uses ↔
      name ∈ optionUses file.options ∨
      (∃ message, file.HasMessage message ∧ (name ∈ optionUses message.info.options ∨
        ∃ field ∈ message.info.fields, name ∈ fieldUses field)) ∨
      (∃ extension, file.HasExtension extension ∧ name ∈ extensionUses extension) ∨
      (∃ enum, file.HasEnum enum ∧ name ∈ optionUses enum.options) ∨
      ∃ service ∈ file.services, name ∈ optionUses service.options ∨
        ∃ method ∈ service.methods, name ∈ methodUses method := by
  simp only [File.uses, messageUses, List.mem_append, List.mem_flatMap, File.mem_allMessages_iff]
  constructor
  · rintro ((((h | ⟨_, ⟨message, hmessage, rfl⟩, ((h | h) | h) | h⟩) | h) | h) | h)
    · exact .inl h
    · exact .inr (.inl ⟨message, hmessage, .inl h⟩)
    · exact .inr (.inl ⟨message, hmessage, .inr h⟩)
    · obtain ⟨extension, hmem, h⟩ := h
      exact .inr (.inr (.inl ⟨extension, .nested hmessage hmem, h⟩))
    · obtain ⟨enum, hmem, h⟩ := h
      exact .inr (.inr (.inr (.inl ⟨enum, .nested hmessage hmem, h⟩)))
    · obtain ⟨extension, hmem, h⟩ := h
      exact .inr (.inr (.inl ⟨extension, .top hmem, h⟩))
    · obtain ⟨enum, hmem, h⟩ := h
      exact .inr (.inr (.inr (.inl ⟨enum, .top hmem, h⟩)))
    · exact .inr (.inr (.inr (.inr h)))
  · rintro (h | ⟨message, hmessage, h | h⟩ | ⟨extension, hextension, h⟩ | ⟨enum, henum, h⟩ | h)
    · exact .inl (.inl (.inl (.inl h)))
    · exact .inl (.inl (.inl (.inr ⟨_, ⟨message, hmessage, rfl⟩, .inl (.inl (.inl h))⟩)))
    · exact .inl (.inl (.inl (.inr ⟨_, ⟨message, hmessage, rfl⟩, .inl (.inl (.inr h))⟩)))
    · cases hextension with
      | top hmem => exact .inl (.inl (.inr ⟨extension, hmem, h⟩))
      | nested hmessage hmem =>
          exact .inl (.inl (.inl (.inr ⟨_, ⟨_, hmessage, rfl⟩, .inl (.inr ⟨extension, hmem, h⟩)⟩)))
    · cases henum with
      | top hmem => exact .inl (.inr ⟨enum, hmem, h⟩)
      | nested hmessage hmem =>
          exact .inl (.inl (.inl (.inr ⟨_, ⟨_, hmessage, rfl⟩, .inr ⟨enum, hmem, h⟩⟩)))
    · exact .inr h

theorem File.exists_mention_of_mem_uses {file : File} {name : String} (h : name ∈ file.uses) :
    ∃ place type, file.Mentions place type ∧ place.isOverlooked = false ∧ type.file = name := by
  simp only [mem_uses_iff, fieldUses, extensionUses, methodUses, List.mem_append, List.mem_cons,
    List.not_mem_nil, or_false, mem_optionUses, mem_typeUses] at h
  rcases h with ⟨type, hset, rfl⟩ | ⟨message, hmessage, ⟨type, hset, rfl⟩ |
      ⟨field, hfield, ⟨type, htype, rfl⟩ | ⟨type, hset, rfl⟩⟩⟩ |
    ⟨extension, hextension, rfl | ⟨type, htype, rfl⟩⟩ | ⟨enum, henum, type, hset, rfl⟩ |
    ⟨service, hservice, ⟨type, hset, rfl⟩ |
      ⟨method, hmethod, (rfl | rfl) | ⟨type, hset, rfl⟩⟩⟩
  · exact ⟨_, type, .fileOption hset, rfl, rfl⟩
  · exact ⟨_, type, .messageOption hmessage hset, rfl, rfl⟩
  · exact ⟨_, type, .fieldType hmessage hfield htype, rfl, rfl⟩
  · exact ⟨_, type, .fieldOption hmessage hfield hset, rfl, rfl⟩
  · exact ⟨_, _, .extendee hextension, rfl, rfl⟩
  · exact ⟨_, type, .extensionType hextension htype, rfl, rfl⟩
  · exact ⟨_, type, .enumOption henum hset, rfl, rfl⟩
  · exact ⟨_, type, .serviceOption hservice hset, rfl, rfl⟩
  · exact ⟨_, _, .input hservice hmethod, rfl, rfl⟩
  · exact ⟨_, _, .output hservice hmethod, rfl, rfl⟩
  · exact ⟨_, type, .methodOption hservice hmethod hset, rfl, rfl⟩

theorem File.mem_uses_of_mentions {file : File} {place : MentionPlace} {type : TypeRef}
    (h : file.Mentions place type) (hplace : place.isOverlooked = false) :
    type.file ∈ file.uses := by
  simp only [mem_uses_iff, fieldUses, extensionUses, methodUses, List.mem_append, List.mem_cons,
    List.not_mem_nil, or_false, mem_optionUses, mem_typeUses]
  cases h with
  | fileOption hset => exact .inl ⟨type, hset, rfl⟩
  | messageOption hmessage hset => exact .inr (.inl ⟨_, hmessage, .inl ⟨type, hset, rfl⟩⟩)
  | fieldType hmessage hfield htype =>
      exact .inr (.inl ⟨_, hmessage, .inr ⟨_, hfield, .inl ⟨type, htype, rfl⟩⟩⟩)
  | fieldOption hmessage hfield hset =>
      exact .inr (.inl ⟨_, hmessage, .inr ⟨_, hfield, .inr ⟨type, hset, rfl⟩⟩⟩)
  | extendee hextension => exact .inr (.inr (.inl ⟨_, hextension, .inl rfl⟩))
  | extensionType hextension htype =>
      exact .inr (.inr (.inl ⟨_, hextension, .inr ⟨type, htype, rfl⟩⟩))
  | enumOption henum hset => exact .inr (.inr (.inr (.inl ⟨_, henum, type, hset, rfl⟩)))
  | serviceOption hservice hset =>
      exact .inr (.inr (.inr (.inr ⟨_, hservice, .inl ⟨type, hset, rfl⟩⟩)))
  | input hservice hmethod =>
      exact .inr (.inr (.inr (.inr ⟨_, hservice, .inr ⟨_, hmethod, .inl (.inl rfl)⟩⟩)))
  | output hservice hmethod =>
      exact .inr (.inr (.inr (.inr ⟨_, hservice, .inr ⟨_, hmethod, .inl (.inr rfl)⟩⟩)))
  | methodOption hservice hmethod hset =>
      exact .inr (.inr (.inr (.inr ⟨_, hservice, .inr ⟨_, hmethod, .inr ⟨type, hset, rfl⟩⟩⟩)))
  | extensionOption | oneofOption | valueOption => cases hplace

/-! ## Unused imports -/

theorem File.mem_unusedImports {file : File} {name : String} :
    name ∈ file.unusedImports ↔ file.ImportsForItself name ∧ name ∉ file.uses := by
  simp only [unusedImports, ImportsForItself, TextSet.mem_ofList, List.mem_map, List.mem_filter,
    Bool.and_eq_true, bne_iff_ne, Bool.not_eq_true', decide_eq_false_iff_not]
  constructor
  · rintro ⟨declared, ⟨hmem, hkind, huses⟩, rfl⟩
    exact ⟨⟨declared, hmem, rfl, hkind⟩, huses⟩
  · rintro ⟨⟨declared, hmem, rfl, hkind⟩, huses⟩
    exact ⟨declared, ⟨hmem, hkind, huses⟩, rfl⟩

/-- An import is reported if the file does not hand it on and mentions it in overlooked places at
most.  That is right for an import exactly if a place that is not overlooked mentions it whenever
any place does. -/
theorem File.unusedImports_exact_iff (file : File) (name : String) :
    (name ∈ file.unusedImports ↔ file.ImportsForItself name ∧
      ∀ place type, file.Mentions place type → type.file = name → place.isOverlooked) ∧
    ((name ∈ file.unusedImports ↔ file.ImportsForItself name ∧
        ∀ place type, file.Mentions place type → type.file ≠ name) ↔
      (file.ImportsForItself name → ∀ place type, file.Mentions place type → type.file = name →
        ∃ place' type', file.Mentions place' type' ∧ place'.isOverlooked = false ∧
          type'.file = name)) := by
  have huses : name ∈ file.uses ↔ ∃ place type, file.Mentions place type ∧
      place.isOverlooked = false ∧ type.file = name := by
    constructor
    · exact exists_mention_of_mem_uses
    · rintro ⟨place, type, hmention, hplace, rfl⟩
      exact mem_uses_of_mentions hmention hplace
  rw [mem_unusedImports, ← huses]
  constructor
  · refine and_congr_right fun _ => ?_
    rw [huses]
    constructor
    · intro hnone place type hmention hname
      by_contra hplace
      exact hnone ⟨place, type, hmention, by simpa using hplace, hname⟩
    · rintro hall ⟨place, type, hmention, hplace, hname⟩
      have hoverlooked := hall place type hmention hname
      rw [hplace] at hoverlooked
      cases hoverlooked
  · constructor
    · intro hexact himport place type hmention hname
      by_contra hunused
      exact (hexact.mp ⟨himport, hunused⟩).2 place type hmention hname
    · intro hseen
      refine and_congr_right fun himport => ⟨?_, ?_⟩
      · intro hunused place type hmention hname
        exact hunused (hseen himport place type hmention hname)
      · intro hnone hused
        obtain ⟨place, type, hmention, -, hname⟩ := huses.mp hused
        exact hnone place type hmention hname

def noteExtension : TypeRef := ⟨"note", "o.note", "opts.proto"⟩

def notedValueFile : File :=
  let note : OptionSet := ⟨[(⟨50307, "note", some noteExtension⟩, .string "x")], []⟩
  { name := "a.proto", package := "", dialect := .proto3, declaresDialect := true
    imports := [⟨"opts.proto", .plain⟩], messages := []
    enums := [⟨"E", "E", [⟨"A", 0, some note⟩], [], [], none⟩]
    services := [], extensions := [], options := none, locations := [] }

theorem File.unusedImports_exact_iff_value_option :
    "opts.proto" ∈ notedValueFile.unusedImports ∧
    notedValueFile.Mentions .valueOption noteExtension ∧
    ¬ ("opts.proto" ∈ notedValueFile.unusedImports ↔
      notedValueFile.ImportsForItself "opts.proto" ∧
      ∀ place type, notedValueFile.Mentions place type → type.file ≠ "opts.proto") := by
  have hunused : "opts.proto" ∈ notedValueFile.unusedImports := by decide
  have hmention : notedValueFile.Mentions .valueOption noteExtension :=
    .valueOption (.top List.mem_cons_self) List.mem_cons_self
      ⟨_, 50307, .string "x", rfl, List.mem_cons_self⟩
  obtain ⟨hreported, hexact⟩ := notedValueFile.unusedImports_exact_iff "opts.proto"
  obtain ⟨himport, hoverlooked⟩ := hreported.mp hunused
  refine ⟨hunused, hmention, fun h => ?_⟩
  obtain ⟨place, type, hseen, hplace, hname⟩ := hexact.mp h himport _ _ hmention rfl
  have hcontra := hoverlooked place type hseen hname
  simp [hplace] at hcontra

end SchemaGo.Schema
