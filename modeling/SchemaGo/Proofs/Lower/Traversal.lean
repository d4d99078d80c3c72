import SchemaGo.Lower.File
import SchemaGo.Proofs.Success

/-!
# Lowering as a traversal

Each part of lowering goes through a list of elements, each at its source path, and lowers them one
after the other.  The messages are those of a tree, and the walk that collects nested enums goes
through the same list of messages.
-/

namespace SchemaGo.Schema

def Field.tagged (field : Field) : List BareField :=
  field.bare :: match field.type with
    | .single _ => []
    | .map entry => [entry.key, entry.value]

end SchemaGo.Schema

namespace SchemaGo.Lowering

variable {α β : Type}

/-! ## Results of actions -/

def Yields (action : Lowering α) (result : α) : Prop :=
  ∃ embedded embedded', action embedded = .ok (result, embedded')

theorem Yields.of_pure {expected result : α} (h : Yields (pure expected) result) :
    result = expected :=
  SchemaGo.Yields.of_pure h

theorem Yields.of_bind {action : Lowering α} {next : α → Lowering β} {result : β}
    (h : Yields (action >>= next) result) :
    ∃ middle, Yields action middle ∧ Yields (next middle) result :=
  SchemaGo.Yields.of_bind h

theorem Yields.of_wrap {around : LowerFault → LowerFault} {action : Lowering α} {result : α}
    (h : Yields (wrap around action) result) : Yields action result := by
  obtain ⟨embedded, embedded', h⟩ := h
  cases hrun : action embedded with
  | error fault => simp [wrap, hrun] at h
  | ok run =>
      simp only [wrap, hrun, Except.ok.injEq] at h
      exact ⟨embedded, embedded', by rw [hrun, h]⟩

theorem Yields.of_defaulted {part : Except Wire.DefaultFault α} {result : α}
    (h : Yields (defaulted part) result) : part = .ok result := by
  cases part with
  | error fault =>
      obtain ⟨embedded, embedded', h⟩ := h
      cases h
  | ok value => rw [h.of_pure]

theorem Yields.of_mapM {f : α → Lowering β} {items : List α} {results : List β}
    (h : Yields (items.mapM f) results) :
    List.Forall₂ (fun item result => Yields (f item) result) items results := by
  induction items generalizing results with
  | nil =>
      rw [List.mapM_nil] at h
      rw [h.of_pure]
      exact .nil
  | cons item items ih =>
      rw [List.mapM_cons] at h
      obtain ⟨first, hfirst, h⟩ := h.of_bind
      obtain ⟨rest, hrest, h⟩ := h.of_bind
      rw [h.of_pure]
      exact .cons hfirst (ih hrest)

theorem bind_congr_of_yields {action : Lowering α} {next next' : α → Lowering β}
    (h : ∀ result, Yields action result → next result = next' result) :
    action >>= next = action >>= next' := by
  funext embedded
  cases hrun : action embedded with
  | error fault => simp only [bind, StateT.bind, Except.bind, hrun]
  | ok run =>
      obtain ⟨result, between⟩ := run
      simp only [bind, StateT.bind, Except.bind, hrun]
      rw [h result ⟨embedded, between, hrun⟩]

/-! ## Lists of elements -/

def placed (path : SourcePath) (number : Int) : Nat → List α → List (SourcePath × α)
  | _, [] => []
  | index, item :: rest => (child path number index, item) :: placed path number (index + 1) rest

@[simp] theorem map_snd_placed (path : SourcePath) (number : Int) (index : Nat) (items : List α) :
    (placed path number index items).map Prod.snd = items := by
  induction items generalizing index with
  | nil => rfl
  | cons item rest ih => simp [placed, ih]

theorem placed_map (f : α → β) (path : SourcePath) (number : Int) (index : Nat)
    (items : List α) :
    placed path number index (items.map f) =
      (placed path number index items).map fun declared => (declared.1, f declared.2) := by
  induction items generalizing index with
  | nil => rfl
  | cons item rest ih => simp [placed, ih]

theorem mem_placed {path : SourcePath} {number : Int} {index : Nat} {items : List α}
    {declared : SourcePath × α} :
    declared ∈ placed path number index items ↔
      ∃ i, items[i]? = some declared.2 ∧ declared.1 = child path number (index + i) := by
  induction items generalizing index with
  | nil => simp [placed]
  | cons item rest ih =>
      rw [placed, List.mem_cons, ih]
      constructor
      · rintro (rfl | ⟨i, hitem, hpath⟩)
        · exact ⟨0, by simp⟩
        · exact ⟨i + 1, by simpa using hitem, by rw [hpath, Nat.add_right_comm, Nat.add_assoc]⟩
      · rintro ⟨i, hitem, hpath⟩
        cases i with
        | zero => exact .inl (Prod.ext hpath (by simpa using hitem.symm))
        | succ i =>
            refine .inr ⟨i, by simpa using hitem, ?_⟩
            rw [hpath, Nat.add_right_comm, Nat.add_assoc]

theorem fields_eq_mapM (ctx : Context) (path : SourcePath) (oneofs : List Schema.Oneof)
    (index : Nat) (declared : List Schema.Field) :
    fields ctx path oneofs index declared =
      (placed path 2 index declared).mapM fun (path, declared) =>
        wrap (.inField declared.name) (field ctx path oneofs declared) := by
  induction declared generalizing index with
  | nil => simp [fields, placed]
  | cons first rest ih => simp [fields, placed, ih]

def enumValue (ctx : Context) (path : SourcePath) (value : Schema.EnumValue) :
    Lowering Ast.EnumValue := do
  let options ← options ctx (path ++ [3]) value.options
  return { name := value.name, number := value.number, options }

theorem enumValues_eq_mapM (ctx : Context) (path : SourcePath) (index : Nat)
    (values : List Schema.EnumValue) :
    enumValues ctx path index values =
      (placed path 2 index values).mapM fun (path, value) => enumValue ctx path value := by
  induction values generalizing index with
  | nil => simp [enumValues, placed]
  | cons first rest ih => simp [enumValues, enumValue, placed, ih]

def wrappedEnum (ctx : Context) (declared : SourcePath × Schema.Enum) : Lowering Ast.Enum :=
  wrap (.inEnum declared.2.fullName) (enum ctx declared.1 declared.2)

theorem enums_eq_mapM (ctx : Context) (path : SourcePath) (number : Int) (index : Nat)
    (declared : List Schema.Enum) :
    enums ctx path number index declared =
      (placed path number index declared).mapM (wrappedEnum ctx) := by
  induction declared generalizing index with
  | nil => simp [enums, placed]
  | cons first rest ih => simp [enums, wrappedEnum, placed, ih]

theorem rpcs_eq_mapM (ctx : Context) (path : SourcePath) (service : String) (index : Nat)
    (methods : List Schema.Method) :
    rpcs ctx path service index methods =
      (placed path 2 index methods).mapM fun (path, method) =>
        wrap (.inRpc method.name) (rpc ctx path service method) := by
  induction methods generalizing index with
  | nil => simp [rpcs, placed]
  | cons first rest ih => simp [rpcs, placed, ih]

theorem services_eq_mapM (ctx : Context) (index : Nat) (declared : List Schema.Service) :
    services ctx index declared =
      (placed [] 6 index declared).mapM fun (path, declared) =>
        wrap (.inService declared.fullName) (service ctx path declared) := by
  induction declared generalizing index with
  | nil => simp [services, placed]
  | cons first rest ih => simp [services, placed, ih]

/-! ## Elements -/

theorem Yields.of_field {ctx : Context} {path : SourcePath} {oneofs : List Schema.Oneof}
    {declared : Schema.Field} {lowered : Ast.Field}
    (h : Yields (field ctx path oneofs declared) lowered) :
    ∃ wire structTag fieldOptions, Lower.wireField ctx.pool declared.bare = .ok wire ∧
      Lower.structTag ctx.pool declared = .ok structTag ∧
      Yields (options ctx (path ++ [8]) declared.options) fieldOptions ∧
      lowered = astField oneofs declared wire structTag fieldOptions := by
  obtain ⟨wire, hwire, h⟩ := h.of_bind
  obtain ⟨structTag, hstructTag, h⟩ := h.of_bind
  obtain ⟨fieldOptions, hoptions, h⟩ := h.of_bind
  exact ⟨wire, structTag, fieldOptions, hwire.of_defaulted, hstructTag.of_defaulted, hoptions,
    h.of_pure⟩

theorem Yields.of_message {ctx : Context} {path : SourcePath} {declared : Schema.Message}
    {lowered : Ast.Message} (h : Yields (message ctx path declared) lowered) :
    List.Forall₂ (fun declaredField => Yields
        (field ctx declaredField.1 declared.info.oneofs declaredField.2))
      (placed path 2 0 declared.info.fieldsByNumber) lowered.fields ∧
    Yields (options ctx (path ++ [7]) declared.info.options) lowered.options ∧
    lowered = {
      name := declared.info.name
      fullName := declared.info.fullName
      fields := lowered.fields
      ignorables := entryNames declared.info.fields
      options := lowered.options
      descriptor := declared.description
      file := ctx.id } := by
  obtain ⟨loweredFields, hfields, h⟩ := h.of_bind
  obtain ⟨messageOptions, hoptions, h⟩ := h.of_bind
  rw [fields_eq_mapM] at hfields
  rw [h.of_pure]
  exact ⟨hfields.of_mapM.imp fun _ _ h => h.of_wrap, hoptions, rfl⟩

theorem Yields.of_enum {ctx : Context} {path : SourcePath} {declared : Schema.Enum}
    {lowered : Ast.Enum} (h : Yields (enum ctx path declared) lowered) :
    List.Forall₂ (fun value => Yields (enumValue ctx value.1 value.2))
      (placed path 2 0 declared.valuesByNumber) lowered.values ∧
    Yields (options ctx (path ++ [3]) declared.options) lowered.options ∧
    lowered = {
      name := declared.name
      fullName := declared.fullName
      values := lowered.values
      options := lowered.options
      file := ctx.id } := by
  obtain ⟨values, hvalues, h⟩ := h.of_bind
  obtain ⟨enumOptions, hoptions, h⟩ := h.of_bind
  rw [enumValues_eq_mapM] at hvalues
  rw [h.of_pure]
  exact ⟨hvalues.of_mapM, hoptions, rfl⟩

theorem Yields.of_enumValue {ctx : Context} {path : SourcePath} {declared : Schema.EnumValue}
    {lowered : Ast.EnumValue} (h : Yields (enumValue ctx path declared) lowered) :
    lowered.name = declared.name ∧ lowered.number = declared.number ∧
      Yields (options ctx (path ++ [3]) declared.options) lowered.options := by
  obtain ⟨valueOptions, hoptions, h⟩ := h.of_bind
  rw [h.of_pure]
  exact ⟨rfl, rfl, hoptions⟩

theorem Yields.of_rpc {ctx : Context} {path : SourcePath} {around : String}
    {method : Schema.Method} {lowered : Ast.Rpc} (h : Yields (rpc ctx path around method) lowered) :
    Yields (options ctx (path ++ [4]) method.options) lowered.options := by
  obtain ⟨rpcOptions, hoptions, h⟩ := h.of_bind
  rw [h.of_pure]
  exact hoptions

/-- A service is lowered with the options of its rpcs as they are, and then made normal. -/
theorem Yields.of_service {ctx : Context} {path : SourcePath} {declared : Schema.Service}
    {lowered : Ast.Service} (h : Yields (service ctx path declared) lowered) :
    ∃ raw, lowered = normalizeService raw ∧
      List.Forall₂ (fun method => Yields (rpc ctx method.1 declared.name method.2))
        (placed path 2 0 declared.methods) raw.rpcs ∧
      Yields (options ctx (path ++ [3]) declared.options) raw.options ∧
      raw.codeGeneration =
        ctx.scope.comments.directiveValues path.render Directive.generate := by
  obtain ⟨loweredRpcs, hrpcs, h⟩ := h.of_bind
  obtain ⟨serviceOptions, hoptions, h⟩ := h.of_bind
  rw [rpcs_eq_mapM] at hrpcs
  rw [h.of_pure]
  exact ⟨_, rfl, hrpcs.of_mapM.imp fun _ _ h => h.of_wrap, hoptions, rfl⟩

/-! ## Trees of messages -/

mutual

def emitted (path : SourcePath) : Schema.Message → List (SourcePath × Schema.Message)
  | .mk info nested =>
    (path, .mk info nested) :: emittedAll (entryNames info.fields) path 3 0 nested
termination_by structural message => message

def emittedAll (ignorables : TextSet) (path : SourcePath) (number : Int) (index : Nat) :
    List Schema.Message → List (SourcePath × Schema.Message)
  | [] => []
  | .mk info nested :: rest =>
    (if info.name ∈ ignorables then []
      else emitted (child path number index) (.mk info nested)) ++
        emittedAll ignorables path number (index + 1) rest
termination_by structural messages => messages

end

theorem emittedAll_cons (ignorables : TextSet) (path : SourcePath) (number : Int) (index : Nat)
    (first : Schema.Message) (rest : List Schema.Message) :
    emittedAll ignorables path number index (first :: rest) =
      (if first.info.name ∈ ignorables then [] else emitted (child path number index) first) ++
        emittedAll ignorables path number (index + 1) rest := by
  cases first
  rfl

def wrappedMessage (ctx : Context) (declared : SourcePath × Schema.Message) :
    Lowering Ast.Message :=
  wrap (.inMessage declared.2.info.fullName) (message ctx declared.1 declared.2)

mutual

theorem messageTree_eq_mapM (ctx : Context) (path : SourcePath) (declared : Schema.Message) :
    messageTree ctx path declared = (emitted path declared).mapM (wrappedMessage ctx) := by
  cases declared with
  | mk info nested =>
      rw [messageTree, emitted, List.mapM_cons]
      apply bind_congr_of_yields
      intro lowered hlowered
      rw [hlowered.of_wrap.of_message.2.2, messages_eq_mapM ctx _ path 3 0 nested]
      rfl
termination_by structural declared

theorem messages_eq_mapM (ctx : Context) (ignorables : TextSet) (path : SourcePath)
    (number : Int) (index : Nat) (declared : List Schema.Message) :
    messages ctx ignorables path number index declared =
      (emittedAll ignorables path number index declared).mapM (wrappedMessage ctx) := by
  cases declared with
  | nil => simp [messages, emittedAll]
  | cons first rest =>
      cases first with
      | mk info nested =>
          rw [messages, emittedAll, List.mapM_append,
            messages_eq_mapM ctx ignorables path number (index + 1) rest]
          split
          · simp
          · rw [messageTree_eq_mapM ctx _ (.mk info nested)]
termination_by structural declared

end

def ownEnums (declared : SourcePath × Schema.Message) : List (SourcePath × Schema.Enum) :=
  placed declared.1 4 0 declared.2.info.enums

mutual

theorem enumTree_eq_mapM (ctx : Context) (path : SourcePath) (declared : Schema.Message) :
    enumTree ctx path declared =
      ((emitted path declared).flatMap ownEnums).mapM (wrappedEnum ctx) := by
  cases declared with
  | mk info nested =>
      rw [enumTree, emitted, List.flatMap_cons, List.mapM_append, enums_eq_mapM,
        nestedEnums_eq_mapM ctx _ path 3 0 nested]
      rfl
termination_by structural declared

theorem nestedEnums_eq_mapM (ctx : Context) (ignorables : TextSet) (path : SourcePath)
    (number : Int) (index : Nat) (declared : List Schema.Message) :
    nestedEnums ctx ignorables path number index declared =
      ((emittedAll ignorables path number index declared).flatMap ownEnums).mapM
        (wrappedEnum ctx) := by
  cases declared with
  | nil => simp [nestedEnums, emittedAll]
  | cons first rest =>
      cases first with
      | mk info nested =>
          rw [nestedEnums, emittedAll, List.flatMap_append, List.mapM_append,
            nestedEnums_eq_mapM ctx ignorables path number (index + 1) rest]
          split
          · simp
          · rw [enumTree_eq_mapM ctx _ (.mk info nested)]
termination_by structural declared

end

/-! ## Files -/

def messagesOf (file : Schema.File) : List (SourcePath × Schema.Message) :=
  emittedAll [] [] 4 0 file.messages

def enumsOf (file : Schema.File) : List (SourcePath × Schema.Enum) :=
  placed [] 5 0 file.enums ++ (messagesOf file).flatMap ownEnums

def servicesOf (file : Schema.File) : List (SourcePath × Schema.Service) :=
  placed [] 6 0 file.services

/-- What the parts of a lowered file come from, one by one. -/
structure LowersParts (ctx : Context) (file : Schema.File) (fileOptions : OptionMap)
    (messages : List Ast.Message) (enums : List Ast.Enum) (services : List Ast.Service) :
    Prop where
  options : Yields (options ctx [8] file.options) fileOptions
  messages : List.Forall₂ (fun declared => Yields (message ctx declared.1 declared.2))
    (messagesOf file) messages
  enums : List.Forall₂ (fun declared => Yields (enum ctx declared.1 declared.2))
    (enumsOf file) enums
  services : List.Forall₂ (fun declared => Yields (service ctx declared.1 declared.2))
    (servicesOf file) services

theorem Yields.of_parts {ctx : Context} {file : Schema.File} {fileOptions : OptionMap}
    {loweredMessages : List Ast.Message} {loweredEnums : List Ast.Enum}
    {loweredServices : List Ast.Service}
    (h : Yields (parts ctx file)
      (fileOptions, loweredMessages, loweredEnums, loweredServices)) :
    LowersParts ctx file fileOptions loweredMessages loweredEnums loweredServices := by
  obtain ⟨_, hoptions, h⟩ := h.of_bind
  obtain ⟨_, hmessages, h⟩ := h.of_bind
  obtain ⟨_, htop, h⟩ := h.of_bind
  obtain ⟨_, hnested, h⟩ := h.of_bind
  obtain ⟨_, hservices, h⟩ := h.of_bind
  cases h.of_pure
  rw [messages_eq_mapM] at hmessages
  rw [enums_eq_mapM] at htop
  rw [nestedEnums_eq_mapM] at hnested
  rw [services_eq_mapM] at hservices
  constructor
  · exact hoptions
  · exact hmessages.of_mapM.imp fun _ _ h => h.of_wrap
  · exact (List.rel_append htop.of_mapM hnested.of_mapM).imp fun _ _ h => h.of_wrap
  · exact hservices.of_mapM.imp fun _ _ h => h.of_wrap

end SchemaGo.Lowering

namespace SchemaGo.Schema.Linked

def context (linked : Linked) (files : FileTree) (id : Ast.FileId) : Lowering.Context :=
  ⟨⟨Comments.ofLocations linked.file.locations, linked.directory, files⟩, linked.pool, id⟩

theorem exists_lowered {linked : Linked} {files : FileTree} {id : Ast.FileId}
    (h : (linked.lower files id).isOk) : ∃ lowered, linked.lower files id = .ok lowered :=
  exists_eq_ok_of_isOk h

theorem names_of_lower {linked : Linked} {files : FileTree} {id : Ast.FileId}
    {lowered : Ast.File} (h : linked.lower files id = .ok lowered) :
    lowered.fileName = Go.fileStem linked.file.name ∧
      (lowered.filePath, lowered.packageName) = Go.splitPackage linked.file.goPackage := by
  simp only [lower] at h
  split at h
  · cases h
  · cases h
    exact ⟨rfl, rfl⟩

theorem lowersParts_of_lower {linked : Linked} {files : FileTree} {id : Ast.FileId}
    {lowered : Ast.File} (h : linked.lower files id = .ok lowered) :
    Lowering.LowersParts (linked.context files id) linked.file lowered.options lowered.messages
      lowered.enums lowered.services := by
  simp only [lower] at h
  split at h
  · cases h
  · rename_i hrun
    cases h
    exact Lowering.Yields.of_parts ⟨_, _, hrun⟩

end SchemaGo.Schema.Linked
