import SchemaGo.Proofs.Lower.Traversal
import SchemaGo.Proofs.Table

/-!
# Flattening messages

The messages of a lowered file are the messages of the schema, parents first, without the entries of
maps.  Lowering finds entries by their simple names, level by level, which is right as long as the
entry of a map is nested in the message with the map and siblings have different names.
-/

namespace SchemaGo.Schema

/-! ## Entries -/

def MessageInfo.entries (info : MessageInfo) : List TypeRef :=
  info.fields.filterMap fun field =>
    match field.type with
    | .map entry => some entry.type
    | .single _ => none

def TypeRef.leadsTo (type : TypeRef) (message : Message) : Bool :=
  type.name == message.info.name && type.fullName == message.info.fullName

theorem TypeRef.name_eq_of_leadsTo {type : TypeRef} {message : Message}
    (h : type.leadsTo message) : type.name = message.info.name := by
  simp only [leadsTo, Bool.and_eq_true, beq_iff_eq] at h
  exact h.1

def Message.isEntryOf (message around : Message) : Bool :=
  around.info.entries.any fun entry => entry.leadsTo message

structure Message.OwnsEntries (message : Message) : Prop where
  nested : ∀ entry ∈ message.info.entries, ∃ child ∈ message.nested, entry.leadsTo child
  distinct : (message.nested.map (·.info.name)).Nodup

theorem mem_entryNames_iff (info : MessageInfo) (name : String) :
    name ∈ Lowering.entryNames info.fields ↔ ∃ entry ∈ info.entries, entry.name = name := by
  have hnames : Lowering.entryNames info.fields = TextSet.ofList (info.entries.map (·.name)) := by
    rw [Lowering.entryNames, MessageInfo.entries, List.map_filterMap]
    congr 2
    funext field
    cases field.type <;> rfl
  simp [hnames]

theorem Message.OwnsEntries.name_mem_iff {parent child : Message} (h : parent.OwnsEntries)
    (hchild : child ∈ parent.nested) :
    child.info.name ∈ Lowering.entryNames parent.info.fields ↔ child.isEntryOf parent := by
  rw [mem_entryNames_iff, Message.isEntryOf, List.any_eq_true]
  constructor
  · rintro ⟨entry, hentry, hname⟩
    obtain ⟨other, hother, hleads⟩ := h.nested entry hentry
    have hsame : other.info.name = child.info.name :=
      (TypeRef.name_eq_of_leadsTo hleads).symm.trans hname
    cases List.inj_on_of_nodup_map h.distinct hother hchild hsame
    exact ⟨entry, hentry, hleads⟩
  · rintro ⟨entry, hentry, hleads⟩
    exact ⟨entry, hentry, TypeRef.name_eq_of_leadsTo hleads⟩

theorem Message.OwnsEntries.mem_entryNames_iff {message : Message} (h : message.OwnsEntries)
    (name : String) :
    name ∈ Lowering.entryNames message.info.fields ↔
      ∃ child ∈ message.nested, child.isEntryOf message ∧ child.info.name = name := by
  constructor
  · intro hname
    obtain ⟨entry, hentry, rfl⟩ := (Schema.mem_entryNames_iff message.info name).mp hname
    obtain ⟨child, hchild, hleads⟩ := h.nested entry hentry
    have hentry : child.isEntryOf message := List.any_eq_true.mpr ⟨entry, hentry, hleads⟩
    exact ⟨child, hchild, hentry, (TypeRef.name_eq_of_leadsTo hleads).symm⟩
  · rintro ⟨child, hchild, hentry, rfl⟩
    exact (h.name_mem_iff hchild).mpr hentry

/-! ## Messages in order -/

mutual

/-- A message and everything nested in it, parents first.  Each comes with the messages around it,
the nearest first. -/
def Message.preorder (around : List Message) : Message → List (List Message × Message)
  | .mk info nested => (around, .mk info nested) :: preorderAll (.mk info nested :: around) nested
termination_by structural message => message

def preorderAll (around : List Message) : List Message → List (List Message × Message)
  | [] => []
  | message :: rest => message.preorder around ++ preorderAll around rest
termination_by structural messages => messages

end

def isEntry : List Message × Message → Bool
  | ([], _) => false
  | (parent :: _, message) => message.isEntryOf parent

def inEntry : List Message → Message → Bool
  | [], _ => false
  | parent :: around, message => message.isEntryOf parent || inEntry around parent

def File.preorder (file : File) : List (List Message × Message) := preorderAll [] file.messages

def File.plainMessages (file : File) : List Message :=
  (file.preorder.filter fun item => !inEntry item.1 item.2).map Prod.snd

mutual

theorem Message.forall_preorder (holds : List Message → Message → Prop) (around : List Message)
    (message : Message) (hself : holds around message)
    (hdown : ∀ item ∈ message.preorder around, holds item.1 item.2 →
      ∀ child ∈ item.2.nested, holds (item.2 :: item.1) child) :
    ∀ item ∈ message.preorder around, holds item.1 item.2 := by
  cases message with
  | mk info nested =>
      rw [Message.preorder] at hdown ⊢
      have hbelow := forall_preorderAll holds (.mk info nested :: around) nested
        (hdown (around, _) List.mem_cons_self hself)
        (fun item hitem => hdown item (List.mem_cons_of_mem _ hitem))
      exact List.forall_mem_cons.mpr ⟨hself, hbelow⟩
termination_by structural message

theorem forall_preorderAll (holds : List Message → Message → Prop) (around messages : List Message)
    (hall : ∀ message ∈ messages, holds around message)
    (hdown : ∀ item ∈ preorderAll around messages, holds item.1 item.2 →
      ∀ child ∈ item.2.nested, holds (item.2 :: item.1) child) :
    ∀ item ∈ preorderAll around messages, holds item.1 item.2 := by
  cases messages with
  | nil => simp [preorderAll]
  | cons first rest =>
      rw [preorderAll] at hdown ⊢
      have hfirst := Message.forall_preorder holds around first (hall first List.mem_cons_self)
        (fun item hitem => hdown item (List.mem_append_left _ hitem))
      have hrest := forall_preorderAll holds around rest
        (fun message hmessage => hall message (List.mem_cons_of_mem _ hmessage))
        (fun item hitem => hdown item (List.mem_append_right _ hitem))
      exact List.forall_mem_append.mpr ⟨hfirst, hrest⟩
termination_by structural messages

end

/-! ## Dropped messages -/

/-- A message that lowering leaves out: it has the name of an entry of the message around it, or
stands inside one that is left out. -/
def isDropped : List Message → Message → Bool
  | [], _ => false
  | parent :: around, message =>
    decide (message.info.name ∈ Lowering.entryNames parent.info.fields) || isDropped around parent

def File.keptMessages (file : File) : List Message :=
  (file.preorder.filter fun item => !isDropped item.1 item.2).map Prod.snd

theorem Message.isDropped_preorder (around : List Message) (message : Message)
    (h : isDropped around message) :
    ∀ item ∈ message.preorder around, isDropped item.1 item.2 := by
  refine message.forall_preorder (isDropped · ·) around h fun item _ hitem child _ => ?_
  rw [isDropped, hitem, Bool.or_true]

mutual

theorem Message.map_snd_emitted (path : SourcePath) (around : List Message) (message : Message)
    (hkept : isDropped around message = false) :
    (Lowering.emitted path message).map Prod.snd =
      ((message.preorder around).filter fun item => !isDropped item.1 item.2).map Prod.snd := by
  cases message with
  | mk info nested =>
      have hnested := map_snd_emittedAll (Lowering.entryNames info.fields) path 3 0
        (.mk info nested :: around) nested
        (fun child _ => by
          rw [isDropped, hkept, Bool.or_false, decide_eq_true_eq]
          rfl)
      rw [Message.preorder, Lowering.emitted, List.map_cons, hnested]
      simp [hkept]
termination_by structural message

theorem map_snd_emittedAll (ignorables : TextSet) (path : SourcePath) (number : Int) (index : Nat)
    (around messages : List Message)
    (hignored : ∀ message ∈ messages, message.info.name ∈ ignorables ↔ isDropped around message) :
    (Lowering.emittedAll ignorables path number index messages).map Prod.snd =
      ((preorderAll around messages).filter fun item => !isDropped item.1 item.2).map
        Prod.snd := by
  cases messages with
  | nil => simp [Lowering.emittedAll, preorderAll]
  | cons first rest =>
      have hrest := map_snd_emittedAll ignorables path number (index + 1) around rest
        (fun message hmessage => hignored message (by simp [hmessage]))
      have hfirst := hignored first (by simp)
      rw [preorderAll]
      cases hdropped : isDropped around first with
      | true =>
          have hinside : ((first.preorder around).filter fun item =>
              !isDropped item.1 item.2) = [] := by
            simpa [List.filter_eq_nil_iff] using Message.isDropped_preorder around first hdropped
          rw [Lowering.emittedAll_cons, if_pos (hfirst.mpr hdropped), List.nil_append, hrest,
            List.filter_append, hinside, List.nil_append]
      | false =>
          have htree := Message.map_snd_emitted (Lowering.child path number index) around first
            hdropped
          have hkept : first.info.name ∉ ignorables := fun hname => by
            simp [hfirst.mp hname] at hdropped
          rw [Lowering.emittedAll_cons, if_neg hkept, List.map_append, htree, hrest,
            List.filter_append, List.map_append]
termination_by structural messages

end

theorem File.map_snd_messagesOf_eq_kept (file : File) :
    (Lowering.messagesOf file).map Prod.snd = file.keptMessages :=
  map_snd_emittedAll [] [] 4 0 [] file.messages (by simp [isDropped])

theorem File.map_snd_enumsOf_eq_kept (file : File) :
    (Lowering.enumsOf file).map Prod.snd =
      file.enums ++ file.keptMessages.flatMap (·.info.enums) := by
  rw [Lowering.enumsOf, List.map_append, Lowering.map_snd_placed, List.map_flatMap,
    ← file.map_snd_messagesOf_eq_kept, List.flatMap_map]
  congr 2
  funext declared
  exact Lowering.map_snd_placed declared.1 4 0 declared.2.info.enums

theorem File.keptMessages_eq_plain (file : File)
    (howns : ∀ item ∈ file.preorder, item.2.OwnsEntries) :
    file.keptMessages = file.plainMessages := by
  have hsame : ∀ item ∈ file.preorder, isDropped item.1 item.2 = inEntry item.1 item.2 := by
    refine forall_preorderAll
      (fun around message => isDropped around message = inEntry around message) [] file.messages
      (fun _ _ => rfl) fun item hitem hsame child hchild => ?_
    have hentry : decide (child.info.name ∈ Lowering.entryNames item.2.info.fields) =
        child.isEntryOf item.2 := by
      rw [Bool.eq_iff_iff, decide_eq_true_eq]
      exact (howns item hitem).name_mem_iff hchild
    rw [isDropped, inEntry, hsame, hentry]
  rw [keptMessages, plainMessages]
  congr 1
  refine List.filter_congr fun item hitem => ?_
  rw [hsame item hitem]

theorem File.map_snd_messagesOf (file : File)
    (howns : ∀ item ∈ file.preorder, item.2.OwnsEntries) :
    (Lowering.messagesOf file).map Prod.snd = file.plainMessages :=
  file.map_snd_messagesOf_eq_kept.trans (file.keptMessages_eq_plain howns)

/-! ## Entries with nothing in them -/

theorem File.inEntry_eq_isEntry (file : File)
    (hbare : ∀ item ∈ file.preorder, isEntry item → item.2.nested = []) :
    ∀ item ∈ file.preorder, inEntry item.1 item.2 = isEntry item := by
  refine forall_preorderAll
    (fun around message => inEntry around message = isEntry (around, message)) [] file.messages
    (fun _ _ => rfl) fun item hitem hself child hchild => ?_
  have hplain : isEntry item = false := by
    by_contra hentry
    have hnone := hbare item hitem (by simpa using hentry)
    exact List.not_mem_nil (hnone ▸ hchild : child ∈ [])
  rw [inEntry, hself, hplain, Bool.or_false, isEntry]

theorem File.plainMessages_eq_of_bare (file : File)
    (hbare : ∀ item ∈ file.preorder, isEntry item → item.2.nested = []) :
    file.plainMessages = (file.preorder.filter fun item => !isEntry item).map Prod.snd := by
  have hsame := file.inEntry_eq_isEntry hbare
  rw [plainMessages]
  congr 1
  refine List.filter_congr fun item hitem => ?_
  rw [hsame item hitem]

/-! ## Lowered messages and enums -/

structure Message.LowersTo (message : Message) (lowered : Ast.Message) : Prop where
  name : lowered.name = message.info.name
  fullName : lowered.fullName = message.info.fullName
  descriptor : lowered.descriptor = message.description
  fields : List.Forall₂ (fun field loweredField =>
      loweredField.protoName = field.name ∧ loweredField.number = field.number)
    message.info.fieldsByNumber lowered.fields
  ignorables : ∀ name, name ∈ lowered.ignorables ↔
    ∃ child ∈ message.nested, child.isEntryOf message ∧ child.info.name = name

structure Enum.LowersTo (enum : Enum) (lowered : Ast.Enum) : Prop where
  name : lowered.name = enum.name
  fullName : lowered.fullName = enum.fullName
  values : List.Forall₂ (fun value loweredValue =>
      loweredValue.name = value.name ∧ loweredValue.number = value.number)
    enum.valuesByNumber lowered.values

theorem Message.OwnsEntries.lowersTo {message : Message} (h : message.OwnsEntries)
    {ctx : Lowering.Context} {path : SourcePath} {lowered : Ast.Message}
    (hlowered : Lowering.Yields (Lowering.message ctx path message) lowered) :
    message.LowersTo lowered := by
  obtain ⟨hfields, -, hform⟩ := hlowered.of_message
  constructor
  · rw [hform]
  · rw [hform]
  · rw [hform]
  · rw [← Lowering.map_snd_placed path 2 0 message.info.fieldsByNumber]
    refine List.forall₂_map_left_iff.mpr (hfields.imp fun field loweredField hfield => ?_)
    obtain ⟨wire, structTag, fieldOptions, -, -, -, rfl⟩ := Lowering.Yields.of_field hfield
    exact ⟨rfl, rfl⟩
  · intro name
    rw [hform]
    exact h.mem_entryNames_iff name

theorem Enum.lowersTo_of_yields {enum : Enum} {ctx : Lowering.Context} {path : SourcePath}
    {lowered : Ast.Enum} (hlowered : Lowering.Yields (Lowering.enum ctx path enum) lowered) :
    enum.LowersTo lowered := by
  obtain ⟨hvalues, -, hform⟩ := hlowered.of_enum
  constructor
  · rw [hform]
  · rw [hform]
  · rw [← Lowering.map_snd_placed path 2 0 enum.valuesByNumber]
    refine List.forall₂_map_left_iff.mpr (hvalues.imp fun value loweredValue hvalue => ?_)
    exact ⟨(Lowering.Yields.of_enumValue hvalue).1, (Lowering.Yields.of_enumValue hvalue).2.1⟩

theorem File.map_snd_enumsOf (file : File)
    (howns : ∀ item ∈ file.preorder, item.2.OwnsEntries) :
    (Lowering.enumsOf file).map Prod.snd =
      file.enums ++ file.plainMessages.flatMap (·.info.enums) := by
  rw [file.map_snd_enumsOf_eq_kept, file.keptMessages_eq_plain howns]

/-- The messages of a lowered file are the plain ones of the schema, in order, and its enums are
those of the file followed by those of the same messages. -/
theorem Linked.lower_flattens (linked : Linked) (files : FileTree) (id : Ast.FileId)
    (lowered : Ast.File) (hlower : linked.lower files id = .ok lowered)
    (howns : ∀ item ∈ linked.file.preorder, item.2.OwnsEntries) :
    List.Forall₂ Message.LowersTo linked.file.plainMessages lowered.messages ∧
    List.Forall₂ Enum.LowersTo
      (linked.file.enums ++ linked.file.plainMessages.flatMap (·.info.enums)) lowered.enums ∧
    ((∀ item ∈ linked.file.preorder, isEntry item → item.2.nested = []) →
      linked.file.plainMessages =
        (linked.file.preorder.filter fun item => !isEntry item).map Prod.snd) := by
  have hparts := linked.lowersParts_of_lower hlower
  have hall : ∀ declared ∈ Lowering.messagesOf linked.file, declared.2.OwnsEntries := by
    intro declared hdeclared
    have hplain : declared.2 ∈ linked.file.plainMessages := by
      rw [← linked.file.map_snd_messagesOf howns]
      exact List.mem_map_of_mem hdeclared
    obtain ⟨item, hitem, hsame⟩ := List.mem_map.mp hplain
    rw [← hsame]
    exact howns item (List.mem_of_mem_filter hitem)
  refine ⟨?_, ?_, linked.file.plainMessages_eq_of_bare⟩
  · rw [← linked.file.map_snd_messagesOf howns]
    refine List.forall₂_map_left_iff.mpr ?_
    exact ((List.forall₂_and_left _ _).mpr ⟨hall, hparts.messages⟩).imp
      fun _ _ h => h.1.lowersTo h.2
  · rw [← linked.file.map_snd_enumsOf howns]
    exact List.forall₂_map_left_iff.mpr
      (hparts.enums.imp fun _ _ hlowered => Enum.lowersTo_of_yields hlowered)

def sampleMessage (name fullName : String) (fields : List Field) (enums : List Enum)
    (nested : List Message) : Message :=
  .mk { name, fullName, fields, enums, extensions := [], oneofs := [], extensionRanges := []
        reservedRanges := [], reservedNames := [], isMapEntry := false, options := none } nested

def sampleField (name : String) (number : Nat) (cardinality : Cardinality) (type : FieldType) :
    Field :=
  { name, fullName := name, jsonName := name, number, cardinality, type, dialect := .proto3
    oneof := none, defaultText := none, proto3Optional := false, options := none }

def sampleFile : File :=
  let key := sampleField "key" 1 .optional (.single (.scalar .string))
  let value := sampleField "value" 2 .optional (.single (.scalar .string))
  let labels := sampleField "labels" 1 .repeated
    (.map ⟨⟨"LabelsEntry", "Outer.LabelsEntry", "a.proto"⟩, false, key.bare, value.bare⟩)
  let level : Enum := ⟨"Level", "Outer.Inner.Level", [⟨"LOW", 0, none⟩], [], [], none⟩
  { name := "a.proto", package := "", dialect := .proto3, declaresDialect := true, imports := []
    messages := [sampleMessage "Outer" "Outer" [labels] []
      [sampleMessage "LabelsEntry" "Outer.LabelsEntry" [key, value] [] [],
       sampleMessage "Inner" "Outer.Inner" [] [level]
        [sampleMessage "LabelsEntry" "Outer.Inner.LabelsEntry" [value] [] []]]]
    enums := [], services := [], extensions := [], options := none, locations := [] }

def sampleLinked : Linked := ⟨⟨[sampleFile]⟩, sampleFile, ""⟩

theorem sampleFile_ownsEntries : ∀ item ∈ sampleFile.preorder, item.2.OwnsEntries := by
  have hnested : ∀ item ∈ sampleFile.preorder, ∀ entry ∈ item.2.info.entries,
      ∃ child ∈ item.2.nested, entry.leadsTo child := by decide
  have hdistinct : ∀ item ∈ sampleFile.preorder,
      (item.2.nested.map (·.info.name)).Nodup := by decide
  intro item hitem
  exact ⟨hnested item hitem, hdistinct item hitem⟩

theorem Linked.lower_flattens_sample :
    ∃ lowered, sampleLinked.lower (.empty []) 0 = .ok lowered ∧
      sampleFile.plainMessages.map (·.info.fullName) =
        ["Outer", "Outer.Inner", "Outer.Inner.LabelsEntry"] ∧
      List.Forall₂ Message.LowersTo sampleFile.plainMessages lowered.messages ∧
      List.Forall₂ Enum.LowersTo
        (sampleFile.plainMessages.flatMap (·.info.enums)) lowered.enums ∧
      sampleFile.plainMessages =
        (sampleFile.preorder.filter fun item => !isEntry item).map Prod.snd := by
  obtain ⟨lowered, hlower⟩ : ∃ lowered, sampleLinked.lower (.empty []) 0 = .ok lowered :=
    Linked.exists_lowered (by decide +kernel)
  obtain ⟨hmessages, henums, hbare⟩ := sampleLinked.lower_flattens (.empty []) 0 lowered hlower
    sampleFile_ownsEntries
  exact ⟨lowered, hlower, by decide, hmessages, henums, hbare (by decide)⟩

end SchemaGo.Schema
