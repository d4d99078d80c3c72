import SchemaGo.Proofs.Lower.FieldType
import SchemaGo.Proofs.Lower.Flattening
import SchemaGo.Proofs.Lower.Lookup
import SchemaGo.Proofs.Schema.References

/-!
# Names of lowered types

A lowered file has its messages and enums side by side, however deep they are nested in the schema,
and fields name them by their simple names.  A field of a type of the same file leads to that type
exactly if lowering keeps the type and no other type that it keeps has the same simple name.
-/

namespace SchemaGo.Schema

/-! ## Kept and dropped types -/

def File.keptTypes (file : File) : List (String × String) :=
  file.keptMessages.flatMap (·.info.types) ++ file.enums.map Enum.names

def File.droppedTypes (file : File) : List (String × String) :=
  (file.preorder.filter fun item => isDropped item.1 item.2).flatMap (·.2.info.types)

mutual

theorem Message.map_preorder (around : List Message) (message : Message) :
    (message.preorder around).map (·.2.info) = message.flatten := by
  cases message with
  | mk info nested =>
      rw [Message.preorder, Message.flatten, List.map_cons, map_preorderAll _ nested]
      rfl
termination_by structural message

theorem map_preorderAll (around messages : List Message) :
    (preorderAll around messages).map (·.2.info) = flattenAll messages := by
  cases messages with
  | nil => rfl
  | cons message rest =>
      rw [preorderAll, flattenAll, List.map_append, Message.map_preorder around message,
        map_preorderAll around rest]
termination_by structural messages

end

theorem File.types_perm (file : File) : file.types.Perm (file.keptTypes ++ file.droppedTypes) := by
  have hmessages : file.allMessages.flatMap (·.types) =
      file.preorder.flatMap (·.2.info.types) := by
    rw [allMessages, ← map_preorderAll [], List.flatMap_map]
    rfl
  have hsplit : (file.preorder.flatMap (·.2.info.types)).Perm
      (file.keptMessages.flatMap (·.info.types) ++ file.droppedTypes) := by
    rw [keptMessages, droppedTypes, List.flatMap_map, ← List.flatMap_append]
    refine List.Perm.flatMap_right _ ?_
    simpa using (List.filter_append_perm (fun item => !isDropped item.1 item.2)
      file.preorder).symm
  rw [types, keptTypes, hmessages, List.append_assoc]
  refine (hsplit.append_right _).trans ?_
  rw [List.append_assoc]
  exact List.perm_append_comm.append_left _

theorem File.mem_keptTypes_iff {file : File} (h : file.types.Nodup) {type : String × String} :
    type ∈ file.keptTypes ↔ type ∈ file.types ∧ type ∉ file.droppedTypes := by
  have hapart := (List.nodup_append.mp (file.types_perm.nodup_iff.mp h)).2.2
  rw [file.types_perm.mem_iff, List.mem_append]
  constructor
  · exact fun hkept => ⟨.inl hkept, fun hdropped => hapart _ hkept _ hdropped rfl⟩
  · rintro ⟨hkept | hdropped, hnot⟩
    · exact hkept
    · exact absurd hdropped hnot

/-- Lowering keeps the type, and no other one of its simple name. -/
structure File.Reaches (file : File) (type : TypeRef) : Prop where
  kept : (type.name, type.fullName) ∉ file.droppedTypes
  alone : ∀ other ∈ file.keptTypes, other.1 = type.name → other.2 = type.fullName

end SchemaGo.Schema

namespace SchemaGo

/-! ## Types of a lowered file -/

def Ast.File.types (file : Ast.File) : List (String × String) :=
  file.messages.map (fun message => (message.name, message.fullName)) ++
    file.enums.map fun enum => (enum.name, enum.fullName)

def Ast.File.LeadsTo (file : Ast.File) (name fullName : String) : Prop :=
  file.types.filter (·.1 = name) = [(name, fullName)]

namespace Schema

section

variable {linked : Linked} {files : FileTree} {id : Ast.FileId} {lowered : Ast.File}

theorem Linked.messageNames_of_lower (h : linked.lower files id = .ok lowered) :
    lowered.messages.map (fun message => (message.name, message.fullName)) =
      linked.file.keptMessages.map fun message => (message.info.name, message.info.fullName) := by
  have hmessages := (linked.lowersParts_of_lower h).messages
  rw [← linked.file.map_snd_messagesOf_eq_kept, List.map_map]
  refine (map_eq_map_of_forall₂ hmessages fun declared loweredMessage hyields => ?_).symm
  rw [hyields.of_message.2.2]
  rfl

theorem Linked.enumNames_of_lower (h : linked.lower files id = .ok lowered) :
    lowered.enums.map (fun enum => (enum.name, enum.fullName)) =
      (linked.file.enums ++ linked.file.keptMessages.flatMap (·.info.enums)).map Enum.names := by
  have henums := (linked.lowersParts_of_lower h).enums
  rw [← linked.file.map_snd_enumsOf_eq_kept, List.map_map]
  refine (map_eq_map_of_forall₂ henums fun declared loweredEnum hyields => ?_).symm
  rw [hyields.of_enum.2.2]
  rfl

theorem Linked.types_perm_of_lower (h : linked.lower files id = .ok lowered) :
    lowered.types.Perm linked.file.keptTypes := by
  have htypes : linked.file.keptMessages.flatMap (·.info.types) =
      linked.file.keptMessages.flatMap fun message =>
        (message.info.name, message.info.fullName) :: message.info.enums.map Enum.names := rfl
  rw [Ast.File.types, messageNames_of_lower h, enumNames_of_lower h, File.keptTypes, htypes,
    List.map_append, List.map_flatMap]
  refine (List.perm_append_comm.append_left _).trans ?_
  rw [← List.append_assoc]
  exact (List.map_append_flatMap_perm _ _ _).append_right _

theorem Linked.leadsTo_iff_of_lower (h : linked.lower files id = .ok lowered)
    (hdistinct : linked.file.types.Nodup) {type : TypeRef}
    (hdeclared : (type.name, type.fullName) ∈ linked.file.types) :
    lowered.LeadsTo type.name type.fullName ↔ linked.file.Reaches type := by
  have hperm := types_perm_of_lower h
  have hkeptNodup : linked.file.keptTypes.Nodup :=
    (List.nodup_append.mp (linked.file.types_perm.nodup_iff.mp hdistinct)).1
  have hfilterNodup : (lowered.types.filter (·.1 = type.name)).Nodup :=
    (hperm.nodup_iff.mpr hkeptNodup).filter _
  rw [Ast.File.LeadsTo, ← List.perm_singleton,
    List.perm_ext_iff_of_nodup hfilterNodup (List.nodup_singleton _)]
  simp only [List.mem_filter, decide_eq_true_eq, List.mem_singleton, hperm.mem_iff]
  constructor
  · intro hfound
    have hkept := ((hfound (type.name, type.fullName)).mpr rfl).1
    refine ⟨((File.mem_keptTypes_iff hdistinct).mp hkept).2, fun other hother hname => ?_⟩
    rw [(hfound other).mp ⟨hother, hname⟩]
  · rintro ⟨hkept, halone⟩ other
    constructor
    · rintro ⟨hother, hname⟩
      exact Prod.ext hname (halone other hother hname)
    · rintro rfl
      exact ⟨(File.mem_keptTypes_iff hdistinct).mpr ⟨hdeclared, hkept⟩, rfl⟩

end

theorem base_goType_of_named? {field : Field} {type : TypeRef} (h : field.named? = some type) :
    (Lower.goType field).base = type.name := by
  rw [Field.named?] at h
  have hbase : ∀ element : ElementType, element.named? = some type →
      Lower.baseType element = type.name := by
    intro element helement
    cases element with
    | scalar | group => cases helement
    | enum | message =>
        cases helement
        rfl
  rw [Lower.goType]
  cases hfield : field.type with
  | single element =>
      rw [hfield] at h
      exact hbase element h
  | map entry =>
      rw [hfield] at h
      exact hbase entry.value.type h

theorem mem_allMessages_of_mem_messagesOf {file : File} {placed : SourcePath × Message}
    (h : placed ∈ Lowering.messagesOf file) : placed.2.info ∈ file.allMessages := by
  have hkept : placed.2 ∈ file.keptMessages := by
    rw [← file.map_snd_messagesOf_eq_kept]
    exact List.mem_map_of_mem h
  obtain ⟨item, hitem, hsame⟩ := List.mem_map.mp hkept
  rw [File.allMessages, ← map_preorderAll [], ← hsame]
  exact List.mem_map_of_mem (List.mem_of_mem_filter hitem)

theorem mem_fields_of_mem_placed {path : SourcePath} {info : MessageInfo}
    {placed : SourcePath × Field} (h : placed ∈ Lowering.placed path 2 0 info.fieldsByNumber) :
    placed.2 ∈ info.fields := by
  have hmember : placed.2 ∈ (Lowering.placed path 2 0 info.fieldsByNumber).map Prod.snd :=
    List.mem_map_of_mem h
  rw [Lowering.map_snd_placed] at hmember
  exact (fieldsByNumber_perm info).mem_iff.mp hmember

/-- The base type of a lowered field whose type is declared in the same file leads to that type, and
to nothing else, exactly if lowering keeps the type and no other one of its simple name. -/
theorem Linked.lower_field_leadsTo_iff {files files' : FileTree} {includeDirectory path : String}
    {linked : Linked} {id : Ast.FileId} {lowered : Ast.File}
    (hlink : link files includeDirectory path = .ok linked)
    (hlower : linked.lower files' id = .ok lowered) :
    List.Forall₂ (fun message loweredMessage =>
      List.Forall₂ (fun field loweredField => ∀ type, field.named? = some type →
          type.file = linked.file.name →
          (lowered.LeadsTo loweredField.baseType type.fullName ↔ linked.file.Reaches type))
        message.info.fieldsByNumber loweredMessage.fields)
      linked.file.keptMessages lowered.messages := by
  have hresolves := resolvesOwn_of_link hlink
  have hmessages := (List.forall₂_and_left _ _).mpr ⟨fun _ => mem_allMessages_of_mem_messagesOf,
    (linked.lowersParts_of_lower hlower).messages⟩
  rw [← linked.file.map_snd_messagesOf_eq_kept]
  refine List.forall₂_map_left_iff.mpr (hmessages.imp ?_)
  rintro ⟨path, message⟩ loweredMessage ⟨hmessage, hyields⟩
  have hfields := (List.forall₂_and_left _ _).mpr ⟨fun _ => mem_fields_of_mem_placed,
    hyields.of_message.1⟩
  rw [← Lowering.map_snd_placed path 2 0 message.info.fieldsByNumber]
  refine List.forall₂_map_left_iff.mpr (hfields.imp ?_)
  rintro ⟨path, field⟩ loweredField ⟨hfield, hyields⟩ type htype hown
  rw [hyields.goType_of_field.2.1, base_goType_of_named? htype]
  exact leadsTo_iff_of_lower hlower (.of_map _ hresolves.distinct)
    (hresolves.declared message.info hmessage field hfield type htype hown)

def siblings : FileTree :=
  ⟨["work"], [(["work", "a.proto"], .file (Text.Utf8.encode
    ("message A\x7bmessage X\x7b\x7doptional X x=1;optional L l=2;\x7d" ++
      "message B\x7bmessage X\x7b\x7d\x7denum L\x7bU=0;\x7d")))]⟩

def showsSiblings (linked : Linked) : Bool :=
  (linked.lower siblings 0).isOk && linked.file.name == "a.proto" &&
    linked.file.keptTypes == [("A", "A"), ("X", "A.X"), ("B", "B"), ("X", "B.X"), ("L", "L")] &&
    linked.file.droppedTypes == [] &&
    linked.file.keptMessages.map (fun message => message.info.fieldsByNumber.map Field.named?) ==
      [[some ⟨"X", "A.X", "a.proto"⟩, some ⟨"L", "L", "a.proto"⟩], [], [], []]

theorem exists_siblings : ∃ linked, link siblings "" "a.proto" = .ok linked ∧
    showsSiblings linked :=
  exists_eq_ok_of_any (by decide +kernel)

theorem Linked.lower_field_leadsTo_iff_siblings :
    ∃ linked lowered, link siblings "" "a.proto" = .ok linked ∧
      linked.lower siblings 0 = .ok lowered ∧
      ∃ message ∈ lowered.messages, ∃ first ∈ message.fields, ∃ second ∈ message.fields,
        ¬ lowered.LeadsTo first.baseType "A.X" ∧ lowered.LeadsTo second.baseType "L" := by
  obtain ⟨linked, hlink, hshows⟩ := exists_siblings
  simp only [showsSiblings, Bool.and_eq_true, beq_iff_eq, and_assoc] at hshows
  obtain ⟨hisOk, hname, hkept, hdropped, hnamed⟩ := hshows
  obtain ⟨lowered, hlower⟩ := Linked.exists_lowered hisOk
  have hleads := Linked.lower_field_leadsTo_iff hlink hlower
  obtain ⟨message, others, hmessages, hfields, -⟩ := List.map_eq_cons_iff.mp hnamed
  obtain ⟨first, rest, hfirst, hx, hrest⟩ := List.map_eq_cons_iff.mp hfields
  obtain ⟨second, after, hsecond, hl, -⟩ := List.map_eq_cons_iff.mp hrest
  rw [hmessages] at hleads
  obtain ⟨loweredMessage, _, hleads, -, hlowered⟩ := List.forall₂_cons_left_iff.mp hleads
  rw [hfirst, hsecond] at hleads
  obtain ⟨loweredFirst, _, hleadsFirst, hleads, hloweredFirst⟩ :=
    List.forall₂_cons_left_iff.mp hleads
  obtain ⟨loweredSecond, _, hleadsSecond, -, hloweredSecond⟩ :=
    List.forall₂_cons_left_iff.mp hleads
  refine ⟨linked, lowered, hlink, hlower, loweredMessage, by simp [hlowered], loweredFirst,
    by simp [hloweredFirst], loweredSecond, by simp [hloweredFirst, hloweredSecond], ?_, ?_⟩
  · intro hfound
    have hreached := (hleadsFirst _ hx hname.symm).mp hfound
    exact absurd (hreached.alone ("X", "B.X") (by simp [hkept]) rfl) (by decide)
  · refine (hleadsSecond _ hl hname.symm).mpr ⟨by simp [hdropped], ?_⟩
    rw [hkept]
    decide

end Schema

end SchemaGo
