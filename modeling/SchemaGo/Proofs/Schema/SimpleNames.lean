import SchemaGo.Proofs.Schema.Words
import SchemaGo.Schema.Scope

/-!
# Names of declared types

The messages that a file declares, nested ones included, as one list with the scope of each.  Their
names and those of their enums are simple, whether they are read from a source or bundled: a name is
a word, or made from one for the entry of a map.
-/

namespace SchemaGo.Schema

/-! ## Declared messages -/

mutual

def MessageDecl.flatten (scope : String) : MessageDecl → List (String × MessageParts)
  | .mk parts nested => (scope, parts) :: flattenDecls (qualify scope parts.name) nested
termination_by structural message => message

def flattenDecls (scope : String) : List MessageDecl → List (String × MessageParts)
  | [] => []
  | message :: rest => message.flatten scope ++ flattenDecls scope rest
termination_by structural messages => messages

end

theorem flattenDecls_append (scope : String) (first second : List MessageDecl) :
    flattenDecls scope (first ++ second) =
      flattenDecls scope first ++ flattenDecls scope second := by
  induction first with
  | nil => rfl
  | cons message rest ih =>
      rw [List.cons_append, flattenDecls, ih, flattenDecls, List.append_assoc]

theorem flattenDecls_mk (scope : String) (parts : MessageParts) (nested : List MessageDecl) :
    flattenDecls scope [.mk parts nested] =
      (scope, parts) :: flattenDecls (qualify scope parts.name) nested := by
  rw [flattenDecls, flattenDecls, List.append_nil, MessageDecl.flatten]

def AllParts (accepts : MessageParts → Prop) (messages : List MessageDecl) : Prop :=
  ∀ scope, ∀ declared ∈ flattenDecls scope messages, accepts declared.2

namespace AllParts

variable {accepts : MessageParts → Prop}

theorem nil : AllParts accepts [] := by
  intro scope declared hdeclared
  cases hdeclared

theorem append {first second : List MessageDecl} (h : AllParts accepts first)
    (h' : AllParts accepts second) : AllParts accepts (first ++ second) := by
  intro scope declared hdeclared
  rw [flattenDecls_append, List.mem_append] at hdeclared
  exact hdeclared.elim (h scope declared) (h' scope declared)

theorem mk {parts : MessageParts} {nested : List MessageDecl} (h : accepts parts)
    (h' : AllParts accepts nested) : AllParts accepts [.mk parts nested] := by
  intro scope declared hdeclared
  rw [flattenDecls_mk, List.mem_cons] at hdeclared
  rcases hdeclared with rfl | hdeclared
  · exact h
  · exact h' _ declared hdeclared

theorem flatMap {α : Type} {items : List α} {messages : α → List MessageDecl}
    (h : ∀ item ∈ items, AllParts accepts (messages item)) :
    AllParts accepts (items.flatMap messages) := by
  induction items with
  | nil => exact nil
  | cons item rest ih =>
      rw [List.flatMap_cons]
      exact (h item List.mem_cons_self).append
        (ih fun other hother => h other (List.mem_cons_of_mem _ hother))

end AllParts

mutual

theorem map_snd_flatten (scope scope' : String) (message : MessageDecl) :
    (message.flatten scope).map Prod.snd = (message.flatten scope').map Prod.snd := by
  cases message with
  | mk parts nested =>
      rw [MessageDecl.flatten, MessageDecl.flatten, List.map_cons, List.map_cons,
        map_snd_flattenDecls _ (qualify scope' parts.name) nested]
termination_by structural message

theorem map_snd_flattenDecls (scope scope' : String) (messages : List MessageDecl) :
    (flattenDecls scope messages).map Prod.snd = (flattenDecls scope' messages).map Prod.snd := by
  cases messages with
  | nil => rfl
  | cons message rest =>
      rw [flattenDecls, flattenDecls, List.map_append, List.map_append,
        map_snd_flatten scope scope' message, map_snd_flattenDecls scope scope' rest]
termination_by structural messages

end

/-- What is declared does not depend on the scope, so it is enough to look at one. -/
theorem AllParts.of_scope {accepts : MessageParts → Prop} {messages : List MessageDecl}
    (scope : String) (h : ∀ declared ∈ flattenDecls scope messages, accepts declared.2) :
    AllParts accepts messages := by
  intro scope' declared hdeclared
  have hparts : declared.2 ∈ (flattenDecls scope messages).map Prod.snd := by
    rw [map_snd_flattenDecls scope scope']
    exact List.mem_map_of_mem hdeclared
  obtain ⟨other, hother, hsame⟩ := List.mem_map.mp hparts
  exact hsame ▸ h other hother

/-! ## Simple names -/

def MessageParts.typeNames (parts : MessageParts) : List String :=
  parts.name :: parts.enums.map (·.name)

def MessageParts.IsSimple (parts : MessageParts) : Prop :=
  ∀ name ∈ parts.typeNames, Schema.IsSimple name

abbrev SimpleDecls : List MessageDecl → Prop := AllParts MessageParts.IsSimple

structure FileDecl.IsSimple (decl : FileDecl) : Prop where
  messages : SimpleDecls decl.messages
  enums : ∀ enum ∈ decl.enums, Schema.IsSimple enum.name

namespace Parser

structure Body.IsSimple (body : Body) : Prop where
  parts : body.parts.IsSimple
  nested : SimpleDecls body.nested

/-! ## Entries of maps -/

theorem toUpper_ne_dot {c : Char} (h : c ≠ '.') : c.toUpper ≠ '.' := by
  intro heq
  unfold Char.toUpper at heq
  split at heq
  · rename_i hsmall
    have hval := congrArg (fun c : Char => c.val.toNat) heq
    have hfirst := UInt32.le_iff_toNat_le.mp hsmall.1
    have hlast := UInt32.le_iff_toNat_le.mp hsmall.2
    simp only [Char.reduceVal, UInt32.reduceSub, UInt32.toNat_add, Char.toNat_val,
      UInt32.reduceToNat, Nat.reducePow] at hval hfirst hlast
    omega
  · exact h heq

theorem dot_not_mem_pascalCase {cs : List Char} (h : '.' ∉ cs) (raise : Bool) :
    '.' ∉ pascalCase raise cs := by
  induction cs generalizing raise with
  | nil => simp [pascalCase]
  | cons c rest ih =>
      rw [List.mem_cons, not_or] at h
      rw [pascalCase]
      split
      · exact ih h.2 true
      · rw [List.mem_cons, not_or]
        refine ⟨?_, ih h.2 false⟩
        split
        · exact (toUpper_ne_dot (Ne.symm h.1)).symm
        · exact h.1

theorem isSimple_entryName {field : String} (h : IsSimple field) : IsSimple (entryName field) := by
  have hpascal := dot_not_mem_pascalCase h true
  simp [IsSimple, entryName, hpascal]

theorem simpleDecls_entryMessage {field : String} (h : IsSimple field) (key : ScalarKind)
    (value : BaseDecl) : SimpleDecls [entryMessage field key value] := by
  refine AllParts.mk (fun name hname => ?_) AllParts.nil
  exact List.mem_singleton.mp hname ▸ isSimple_entryName h

theorem reads_mapField (comment : Option String) :
    Reads (mapField comment) fun result => SimpleDecls [result.2] := by
  rw [mapField]
  refine (keeps_mark _).andThen fun _ => keeps_baseType.andThen fun key => ?_
  split
  · exact reads_failure
  · refine (keeps_mark _).andThen fun _ => keeps_baseType.andThen fun value => ?_
    refine (keeps_mark _).andThen fun _ => (reads_fieldTail _ _ _ _).bind fun field hfield => ?_
    exact reads_pure (simpleDecls_entryMessage hfield _ value)

/-! ## Enums -/

theorem reads_enumItem (enum : EnumDecl) :
    Reads (enumItem enum) fun result => result.name = enum.name := by
  rw [enumItem]
  refine keeps_comment.andThen fun comment => (keeps_takesMark _).branch (reads_pure rfl) ?_
  refine keeps_word.andThen fun first => ?_
  split
  · exact (keeps_optionStatement _).andThen fun option => reads_pure rfl
  · split
    · refine (keeps_reserved _).andThen fun reserved => ?_
      split <;> exact reads_pure rfl
    · refine (keeps_mark _).andThen fun _ => (keeps_number _).andThen fun number => ?_
      exact keeps_fieldOptions.andThen fun options => (keeps_mark _).andThen fun _ =>
        reads_pure rfl

theorem reads_enumDecl (comment : Option String) :
    Reads (enumDecl comment) fun enum => IsSimple enum.name := by
  rw [enumDecl]
  refine reads_word.bind fun name hname => (keeps_mark _).andThen fun _ => ?_
  refine reads_foldUntil (keeps_takesMark _) (fun enum henum => ?_) hname
  exact (reads_enumItem enum).weaken fun result hsame => hsame.symm ▸ henum

/-! ## Messages -/

theorem Body.IsSimple.addField {body : Body} (h : body.IsSimple) (field : FieldDecl) :
    (body.addField field).IsSimple :=
  ⟨h.parts, h.nested⟩

theorem isSimple_start {name : String} (h : Schema.IsSimple name) (comment : Option String) :
    Body.IsSimple ⟨{ MessageParts.empty name with comment }, []⟩ := by
  refine ⟨fun other hother => ?_, AllParts.nil⟩
  exact List.mem_singleton.mp hother ▸ h

/-- The parsers of messages up to a depth make declarations with simple names. -/
structure ReadsSimple (fuel : Nat) : Prop where
  messageBody : ∀ body, body.IsSimple → Reads (messageBody fuel body) fun message =>
    SimpleDecls [message]
  group : ∀ label oneof comment, Reads (group fuel label oneof comment) fun result =>
    SimpleDecls [result.2]
  field : ∀ oneof comment, Reads (field fuel oneof comment) fun result => SimpleDecls result.2
  extendDecl : ∀ comment, Reads (extendDecl fuel comment) fun result => SimpleDecls result.2
  oneofItem : ∀ index state, state.2.IsSimple → Reads (oneofItem fuel index state) fun result =>
    result.2.IsSimple
  messageItem : ∀ body, body.IsSimple → Reads (messageItem fuel body) Body.IsSimple

section

variable {fuel : Nat} (hinner : ReadsSimple fuel)

include hinner

theorem ReadsSimple.messageBody_succ {body : Body} (h : body.IsSimple) :
    Reads (Parser.messageBody (fuel + 1) body) fun message => SimpleDecls [message] := by
  rw [Parser.messageBody]
  refine (reads_foldUntil (keeps_takesMark _) hinner.messageItem h).bind fun body hbody => ?_
  exact reads_pure (AllParts.mk hbody.parts hbody.nested)

theorem ReadsSimple.group_succ (label : Option Cardinality) (oneof : Option Nat)
    (comment : Option String) :
    Reads (Parser.group (fuel + 1) label oneof comment) fun result => SimpleDecls [result.2] := by
  rw [Parser.group]
  refine reads_word.bind fun name hname => reads_check ?_
  refine (keeps_mark _).andThen fun _ => keeps_integer.andThen fun number => ?_
  refine keeps_fieldOptions.andThen fun options => (keeps_mark _).andThen fun _ => ?_
  exact (hinner.messageBody _ (isSimple_start hname comment)).bind fun _ hmessage =>
    reads_pure hmessage

theorem ReadsSimple.field_succ (oneof : Option Nat) (comment : Option String) :
    Reads (Parser.field (fuel + 1) oneof comment) fun result => SimpleDecls result.2 := by
  rw [Parser.field]
  refine keeps_fieldLabel.andThen fun label => (keeps_sees _).andThen fun seen => reads_check ?_
  refine (keeps_takesWord _).branch ?_ ?_
  · exact (hinner.group label oneof comment).bind fun result hresult => reads_pure hresult
  · exact keeps_baseType.andThen fun type => (reads_fieldTail _ _ _ _).keeps.andThen fun field =>
      reads_pure AllParts.nil

theorem ReadsSimple.extendDecl_succ (comment : Option String) :
    Reads (Parser.extendDecl (fuel + 1) comment) fun result => SimpleDecls result.2 := by
  rw [Parser.extendDecl]
  refine keeps_typeName.andThen fun extendee => (keeps_mark _).andThen fun _ => ?_
  refine (reads_itemsUntil (fun item => SimpleDecls item.2) ?_).bind fun items hitems =>
    reads_pure (AllParts.flatMap hitems)
  refine keeps_comment.andThen fun comment => (keeps_takesMark _).branch (reads_pure (by simp)) ?_
  refine (hinner.field none comment).bind fun item hitem => reads_pure ?_
  intro other hother
  exact List.mem_singleton.mp hother ▸ hitem

theorem ReadsSimple.oneofItem_succ (index : Nat) {state : OneofDecl × Body}
    (h : state.2.IsSimple) :
    Reads (Parser.oneofItem (fuel + 1) index state) fun result => result.2.IsSimple := by
  obtain ⟨oneof, body⟩ := state
  rw [Parser.oneofItem]
  refine keeps_comment.andThen fun comment => (keeps_takesMark _).branch (reads_pure h) ?_
  refine (keeps_takesWord _).branch ?_ ?_
  · exact (keeps_optionStatement _).andThen fun option => reads_pure h
  · refine (hinner.field (some index) comment).bind fun item hitem => reads_pure ?_
    exact ⟨(h.addField item.1).parts, h.nested.append hitem⟩

theorem ReadsSimple.messageItem_succ {body : Body} (h : body.IsSimple) :
    Reads (Parser.messageItem (fuel + 1) body) Body.IsSimple := by
  rw [Parser.messageItem]
  refine keeps_comment.andThen fun comment => (keeps_takesMark _).branch (reads_pure h) ?_
  refine (keeps_takesWord "option").branch ?_ <| (keeps_takesWord "message").branch ?_ <|
    (keeps_takesWord "enum").branch ?_ <| (keeps_takesWord "extend").branch ?_ <|
    (keeps_takesWord "extensions").branch ?_ <| (keeps_takesWord "reserved").branch ?_ <|
    (keeps_takesWord "oneof").branch ?_ <| (keeps_takesWord "map").branch ?_ ?_
  · exact (keeps_optionStatement _).andThen fun option => reads_pure ⟨h.parts, h.nested⟩
  · refine reads_word.bind fun name hname => (keeps_mark _).andThen fun _ => ?_
    refine (hinner.messageBody _ (isSimple_start hname comment)).bind fun message hmessage => ?_
    exact reads_pure ⟨h.parts, h.nested.append hmessage⟩
  · refine (reads_enumDecl comment).bind fun enum henum => reads_pure ⟨?_, h.nested⟩
    have hnames : { body.parts with enums := body.parts.enums ++ [enum] }.typeNames =
        body.parts.typeNames ++ [enum.name] := by
      simp [MessageParts.typeNames]
    rw [MessageParts.IsSimple, hnames]
    exact List.forall_mem_append.mpr ⟨h.parts, by simpa using henum⟩
  · refine (hinner.extendDecl comment).bind fun extension hextension => reads_pure ?_
    exact ⟨h.parts, h.nested.append hextension⟩
  · refine Keeps.andThen (by simp) fun ranges => keeps_fieldOptions.andThen fun options => ?_
    exact (keeps_mark _).andThen fun _ => reads_pure ⟨h.parts, h.nested⟩
  · refine (keeps_reserved _).andThen fun reserved => ?_
    split <;> exact reads_pure ⟨h.parts, h.nested⟩
  · refine keeps_word.andThen fun name => (keeps_mark _).andThen fun _ => ?_
    refine (reads_foldUntil (keeps_takesMark _) (hinner.oneofItem _) h).bind fun state hstate => ?_
    exact reads_pure ⟨hstate.parts, hstate.nested⟩
  · refine (reads_mapField comment).bind fun item hitem => reads_pure ?_
    exact ⟨(h.addField item.1).parts, h.nested.append hitem⟩
  · refine (hinner.field none comment).bind fun item hitem => reads_pure ?_
    exact ⟨(h.addField item.1).parts, h.nested.append hitem⟩

end

theorem readsSimple (fuel : Nat) : ReadsSimple fuel := by
  induction fuel with
  | zero =>
      exact ⟨fun _ _ => reads_failure, fun _ _ _ => reads_failure, fun _ _ => reads_failure,
        fun _ => reads_failure, fun _ _ _ => reads_failure, fun _ _ => reads_failure⟩
  | succ fuel ih =>
      exact ⟨fun _ => ih.messageBody_succ, ih.group_succ, ih.field_succ,
        ih.extendDecl_succ, fun index _ => ih.oneofItem_succ index,
        fun _ => ih.messageItem_succ⟩

/-! ## Services -/

@[simp] theorem keeps_streamType : Keeps streamType := by
  rw [streamType]
  exact keeps_bind (by simp) fun _ => keeps_bind (by simp) fun streaming => by simp

@[simp] theorem keeps_methodOption : Keeps methodOption := by
  rw [methodOption]
  exact keeps_bind (by simp) fun comment => keeps_branch (by simp) (by simp) (by simp)

@[simp] theorem keeps_serviceItem (service : ServiceDecl) : Keeps (serviceItem service) := by
  rw [serviceItem]
  refine keeps_bind (by simp) fun comment => keeps_branch (by simp) (by simp) ?_
  refine keeps_branch (by simp) (by simp) ?_
  refine keeps_bind (by simp) fun _ => keeps_bind (by simp) fun name => ?_
  refine keeps_bind (by simp) fun input => keeps_bind (by simp) fun _ => ?_
  refine keeps_bind (by simp) fun output => keeps_branch (by simp) (by simp) ?_
  exact keeps_bind (by simp) fun _ => by simp

/-! ## Files -/

@[simp] theorem keeps_importKind : Keeps importKind := by
  rw [importKind]
  exact keeps_branch (by simp) (by simp) (by simp)

@[simp] theorem keeps_importDecl (comment : Option String) : Keeps (importDecl comment) := by
  rw [importDecl]
  exact keeps_bind (by simp) fun kind => keeps_bind (by simp) fun name => by simp

theorem reads_fileItem {file : FileDecl} (h : file.IsSimple) :
    Reads (fileItem file) FileDecl.IsSimple := by
  rw [fileItem]
  refine keeps_comment.andThen fun comment => keeps_get.andThen fun tokens => ?_
  refine (keeps_takesMark _).branch (reads_pure h) (keeps_word.andThen fun keyword => ?_)
  have hinner := readsSimple (2 * tokens.length + 2)
  split
  · refine keeps_dottedName.andThen fun name => (keeps_mark _).andThen fun _ => ?_
    split
    · exact reads_failure
    · exact reads_pure ⟨h.messages, h.enums⟩
  · exact (keeps_importDecl _).andThen fun declared => reads_pure ⟨h.messages, h.enums⟩
  · exact (keeps_optionStatement _).andThen fun option => reads_pure ⟨h.messages, h.enums⟩
  · refine reads_word.bind fun name hname => (keeps_mark _).andThen fun _ => ?_
    refine (hinner.messageBody _ (isSimple_start hname comment)).bind fun message hmessage => ?_
    exact reads_pure ⟨h.messages.append hmessage, h.enums⟩
  · refine (reads_enumDecl comment).bind fun enum henum => reads_pure ⟨h.messages, ?_⟩
    exact List.forall_mem_append.mpr ⟨h.enums, by simpa using henum⟩
  · refine keeps_word.andThen fun name => (keeps_mark _).andThen fun _ => ?_
    exact Keeps.andThen (by simp) fun service => reads_pure ⟨h.messages, h.enums⟩
  · refine (hinner.extendDecl comment).bind fun extension hextension => reads_pure ?_
    exact ⟨h.messages.append hextension, h.enums⟩
  · exact reads_failure

theorem reads_dialect : Reads dialect FileDecl.IsSimple := by
  have hempty : ∀ file : FileDecl, file.messages = [] → file.enums = [] → file.IsSimple :=
    fun file hmessages henums => ⟨hmessages ▸ AllParts.nil, by simp [henums]⟩
  rw [dialect]
  refine keeps_comment.andThen fun comment => (keeps_takesWord _).branch ?_ ?_
  · refine (keeps_mark _).andThen fun _ => keeps_quoted.andThen fun name => ?_
    refine (keeps_mark _).andThen fun _ => ?_
    dsimp only
    split
    · exact reads_pure (hempty _ rfl rfl)
    · exact reads_pure (hempty _ rfl rfl)
    · exact reads_failure
  · exact reads_pure (hempty _ rfl rfl)

theorem reads_file : Reads file FileDecl.IsSimple :=
  reads_dialect.bind fun _ hstart =>
    reads_foldUntil keeps_atEnd (fun _ => reads_fileItem) hstart

end Parser

theorem isSimple_of_parse? {source : String} {decl : FileDecl}
    (h : FileDecl.parse? source = some decl) : decl.IsSimple := by
  obtain ⟨tokens, htokens, h⟩ := Option.bind_eq_some_iff.mp h
  obtain ⟨⟨result, rest⟩, hrun, rfl⟩ := Option.map_eq_some_iff.mp h
  exact (Parser.reads_file tokens (worded_of_tokens? htokens) result rest hrun).2

/-! ## Bundled files -/

namespace Bundled

theorem isSimple_of_nameBelow? {parent name below : String}
    (h : nameBelow? parent name = some below) : IsSimple below := by
  simp only [nameBelow?, Option.ite_none_right_eq_some, Option.some.injEq, Bool.and_eq_true,
    Bool.not_eq_true', List.contains_eq_mem, decide_eq_false_iff_not] at h
  obtain ⟨⟨-, hdot⟩, rfl⟩ := h
  simpa [IsSimple] using hdot

theorem isSimple_metaEnums (parent : String) : ∀ enum ∈ metaEnums parent, IsSimple enum.name := by
  intro enum henum
  obtain ⟨type, -, hname⟩ := List.mem_filterMap.mp henum
  obtain ⟨below, hbelow, rfl⟩ := Option.map_eq_some_iff.mp hname
  exact isSimple_of_nameBelow? hbelow

theorem isSimple_metaParts {type : MetaType} {parent name : String}
    (h : nameBelow? parent type.name = some name) : (metaParts type name).IsSimple := by
  intro other hother
  rcases List.mem_cons.mp hother with rfl | henum
  · exact isSimple_of_nameBelow? h
  · obtain ⟨enum, hdeclared, rfl⟩ := List.mem_map.mp henum
    exact isSimple_metaEnums _ enum hdeclared

theorem allParts_filterMap {accepts : MessageParts → Prop} {types : List MetaType}
    {parent : String} {nested : MetaType → List MessageDecl}
    (h : ∀ type name, nameBelow? parent type.name = some name → accepts (metaParts type name))
    (h' : ∀ type ∈ types, AllParts accepts (nested type)) :
    AllParts accepts (types.filterMap fun type => (nameBelow? parent type.name).map fun name =>
      .mk (metaParts type name) (nested type)) := by
  induction types with
  | nil => exact AllParts.nil
  | cons type rest ih =>
      have hrest := ih fun other hother => h' other (List.mem_cons_of_mem _ hother)
      rw [List.filterMap_cons]
      split
      · exact hrest
      · rename_i message hmessage
        obtain ⟨name, hname, rfl⟩ := Option.map_eq_some_iff.mp hmessage
        exact (AllParts.mk (h type name hname) (h' type List.mem_cons_self)).append hrest

theorem allParts_metaMessages {accepts : MessageParts → Prop}
    (h : ∀ parent type name, nameBelow? parent type.name = some name →
      accepts (metaParts type name)) : AllParts accepts metaMessages :=
  allParts_filterMap (h "") fun type _ =>
    allParts_filterMap (h type.name) fun _ _ => AllParts.nil

theorem isSimple_descriptor : descriptor.IsSimple := by
  have hdescribed : SimpleDecls metaMessages :=
    allParts_metaMessages fun _ _ _ => isSimple_metaParts
  have hother : SimpleDecls otherMessages := by
    refine AllParts.of_scope "" ?_
    simp only [MessageParts.IsSimple]
    decide +kernel
  exact ⟨hdescribed.append hother, isSimple_metaEnums ""⟩

end Bundled

theorem isSimple_of_bundled {entry : String × FileDecl} (h : entry ∈ Bundled.files) :
    entry.2.IsSimple := by
  have hsmall : ∀ decl ∈ [Bundled.any, Bundled.api, Bundled.duration, Bundled.empty,
      Bundled.fieldMask, Bundled.sourceContext, Bundled.struct, Bundled.timestamp, Bundled.type,
      Bundled.wrappers, Bundled.plugin],
      (∀ declared ∈ flattenDecls "" decl.messages, ∀ name ∈ declared.2.typeNames, IsSimple name) ∧
        ∀ enum ∈ decl.enums, IsSimple enum.name := by
    decide +kernel
  by_cases hdescriptor : entry.2 = Bundled.descriptor
  · rw [hdescriptor]
    exact Bundled.isSimple_descriptor
  · have hmember : entry.2 ∈ Bundled.files.map Prod.snd := List.mem_map_of_mem h
    simp only [Bundled.files, List.map_cons, List.map_nil, List.mem_cons, hdescriptor, false_or]
      at hmember
    obtain ⟨hmessages, henums⟩ := hsmall entry.2 (by simpa using hmember)
    exact ⟨AllParts.of_scope "" hmessages, henums⟩

theorem parsed_or_bundled {lookup : Lookup} {tree : FileTree} {name : String} {decl : FileDecl}
    (h : readDeclarations lookup tree name = .ok decl) :
    (∃ source, FileDecl.parse? source = some decl) ∨ ∃ entry ∈ Bundled.files, entry.2 = decl := by
  unfold readDeclarations at h
  split at h
  · rename_i source hsource
    unfold declarations at h
    split at h
    · cases h
    · rename_i parsed hparsed
      split at h
      · cases h
        exact .inl ⟨source, hparsed⟩
      · cases h
  · split at h
    · split at h
      · rename_i bundled hbundled
        cases h
        obtain ⟨before, after, hfiles, -⟩ := List.lookup_eq_some_iff.mp hbundled
        exact .inr ⟨(name, decl), by simp [hfiles], rfl⟩
      · cases h
    · cases h

theorem isSimple_of_readDeclarations {lookup : Lookup} {tree : FileTree} {name : String}
    {decl : FileDecl} (h : readDeclarations lookup tree name = .ok decl) : decl.IsSimple := by
  obtain ⟨source, hsource⟩ | ⟨entry, hentry, rfl⟩ := parsed_or_bundled h
  · exact isSimple_of_parse? hsource
  · exact isSimple_of_bundled hentry

end SchemaGo.Schema
