import SchemaGo.Proofs.Lower.Lookup
import SchemaGo.Proofs.Option.Entries
import SchemaGo.Proofs.Reading.Traced

/-!
# Lowering step by step

Lowering goes through the elements of a file in order.  On its way it refuses the
defaults that are malformed and reads the files that options ask for, and both are
known beforehand.  So a run is a list of steps: it fails with the first step that
does, and otherwise its result takes nothing from the file tree but what the steps
read.
-/

namespace SchemaGo

/-! ## Steps -/

/-- Something malformed, or a file to embed with what is put around the fault if it is missing. -/
inductive LowerStep where
  | reject (fault : LowerFault)
  | embed (file : String) (around : LowerFault → LowerFault)

namespace LowerStep

def within (around : LowerFault → LowerFault) : LowerStep → LowerStep
  | .reject fault => .reject (around fault)
  | .embed file inner => .embed file (around ∘ inner)

def file? : LowerStep → Option String
  | .reject _ => none
  | .embed file _ => some file

def fault? (tree : FileTree) : LowerStep → Option LowerFault
  | .reject fault => some fault
  | .embed file around =>
    match tree.read file with
    | .ok _ => none
    | .error cause => some (around (.embed ⟨file, cause⟩))

def files (steps : List LowerStep) : List String := steps.filterMap file?

def faults (tree : FileTree) (steps : List LowerStep) : List LowerFault :=
  steps.filterMap (fault? tree)

@[simp] theorem files_nil : files [] = [] := rfl

@[simp] theorem files_append (steps more : List LowerStep) :
    files (steps ++ more) = files steps ++ files more := List.filterMap_append

@[simp] theorem faults_append (tree : FileTree) (steps more : List LowerStep) :
    faults tree (steps ++ more) = faults tree steps ++ faults tree more := List.filterMap_append

@[simp] theorem files_flatMap {α : Type} (stepsOf : α → List LowerStep) (items : List α) :
    files (items.flatMap stepsOf) = items.flatMap fun item => files (stepsOf item) :=
  List.filterMap_flatMap

@[simp] theorem faults_flatMap {α : Type} (tree : FileTree) (stepsOf : α → List LowerStep)
    (items : List α) :
    faults tree (items.flatMap stepsOf) = items.flatMap fun item => faults tree (stepsOf item) :=
  List.filterMap_flatMap

@[simp] theorem files_within (around : LowerFault → LowerFault) (steps : List LowerStep) :
    files (steps.map (within around)) = files steps := by
  rw [files, List.filterMap_map]
  refine List.filterMap_congr fun step _ => ?_
  cases step <;> rfl

@[simp] theorem map_within_id (steps : List LowerStep) : steps.map (within id) = steps := by
  have hid : within id = id := by
    funext step
    cases step <;> rfl
  rw [hid, List.map_id]

@[simp] theorem faults_within (tree : FileTree) (around : LowerFault → LowerFault)
    (steps : List LowerStep) :
    faults tree (steps.map (within around)) = (faults tree steps).map around := by
  rw [faults, faults, List.filterMap_map, List.map_filterMap]
  refine List.filterMap_congr fun step _ => ?_
  cases step with
  | reject fault => rfl
  | embed file inner => cases hread : tree.read file <;> simp [within, fault?, hread]

end LowerStep

namespace EmbedScope

def on (scope : EmbedScope) (tree : FileTree) : EmbedScope := { scope with files := tree }

@[simp] theorem asked_on (scope : EmbedScope) (tree : FileTree) :
    (scope.on tree).asked = scope.asked := rfl

theorem readFault?_eq_none_iff {scope : EmbedScope} {file : String} :
    scope.readFault? file = none ↔ ∃ contents, scope.files.read file = .ok contents := by
  rw [readFault?]
  cases scope.files.read file <;> simp

end EmbedScope

namespace Lowering

/-! ## Actions that follow steps -/

variable {α β : Type} {first second : List LowerStep}

def Context.on (ctx : Context) (tree : FileTree) : Context :=
  { ctx with scope := ctx.scope.on tree }

@[simp] theorem Context.id_on (ctx : Context) (tree : FileTree) : (ctx.on tree).id = ctx.id := rfl

@[simp] theorem Context.pool_on (ctx : Context) (tree : FileTree) :
    (ctx.on tree).pool = ctx.pool := rfl

@[simp] theorem Context.comments_on (ctx : Context) (tree : FileTree) :
    (ctx.on tree).scope.comments = ctx.scope.comments := rfl

/-- The action fails with the first fault of the steps.  If there is none, it notes their files, and
its result is the same on every tree where these can be read alike. -/
structure Follows (action : FileTree → Lowering α) (steps : List LowerStep) : Prop where
  stops : ∀ tree fault, (LowerStep.faults tree steps).head? = some fault →
    ∀ embedded, action tree embedded = .error fault
  passes : ∀ tree, LowerStep.faults tree steps = [] → ∃ result, ∀ tree',
    (∀ file ∈ LowerStep.files steps, tree.SameRead tree' file) →
      ∀ embedded, action tree' embedded = .ok (result, embedded ++ LowerStep.files steps)

theorem Follows.stops_run {action : FileTree → Lowering α} (h : Follows action first)
    (tree : FileTree) (embedded : List String) :
    Stops (LowerStep.faults tree first) (action tree embedded) := by
  cases hfaults : LowerStep.faults tree first with
  | nil =>
      obtain ⟨result, hresult⟩ := h.passes tree hfaults
      rw [hresult tree fun _ _ => rfl]
      exact .never _
  | cons fault later =>
      rw [h.stops tree fault (by rw [hfaults, List.head?_cons])]
      exact .first fault later

theorem Follows.embedded_eq {action : FileTree → Lowering α} (h : Follows action first)
    (tree : FileTree) {result : α} {embedded embedded' : List String}
    (hrun : action tree embedded = .ok (result, embedded')) :
    embedded' = embedded ++ LowerStep.files first := by
  have hfaults := (h.stops_run tree embedded).ok_iff.mp ⟨_, hrun⟩
  obtain ⟨result', hresult⟩ := h.passes tree hfaults
  rw [hresult tree fun _ _ => rfl] at hrun
  cases hrun
  rfl

theorem follows_pure (result : α) : Follows (fun _ => pure result) [] where
  stops _ _ h := by cases h
  passes _ _ := by
    refine ⟨result, fun _ _ embedded => ?_⟩
    rw [LowerStep.files_nil, List.append_nil]
    rfl

theorem follows_throw (fault : LowerFault) (more : List LowerStep) :
    Follows (fun _ => (throw fault : Lowering α)) (.reject fault :: more) where
  stops _ _ h _ := by
    cases h
    rfl
  passes _ h := by cases h

theorem Follows.bind {action : FileTree → Lowering α} {next : FileTree → α → Lowering β}
    (h : Follows action first) (hnext : ∀ value, Follows (next · value) second) :
    Follows (fun tree => action tree >>= next tree) (first ++ second) where
  stops tree fault hfault embedded := by
    change (action tree embedded >>= fun run => next tree run.1 run.2) = .error fault
    rw [LowerStep.faults_append, List.head?_append, Option.or_eq_some_iff] at hfault
    rcases hfault with hfirst | ⟨hnone, hsecond⟩
    · rw [h.stops tree fault hfirst]
      rfl
    · obtain ⟨value, hvalue⟩ := h.passes tree (List.head?_eq_none_iff.mp hnone)
      rw [hvalue tree fun _ _ => rfl]
      exact (hnext value).stops tree fault hsecond _
  passes tree hfaults := by
    rw [LowerStep.faults_append, List.append_eq_nil_iff] at hfaults
    obtain ⟨value, hvalue⟩ := h.passes tree hfaults.1
    obtain ⟨result, hresult⟩ := (hnext value).passes tree hfaults.2
    refine ⟨result, fun tree' hsame embedded => ?_⟩
    rw [LowerStep.files_append, List.forall_mem_append] at hsame
    change (action tree' embedded >>= fun run => next tree' run.1 run.2) = _
    rw [hvalue tree' hsame.1, LowerStep.files_append, ← List.append_assoc]
    exact hresult tree' hsame.2 _

theorem Follows.andThen {action : FileTree → Lowering α} (h : Follows action first)
    (result : α → β) : Follows (fun tree => do return result (← action tree)) first := by
  rw [← List.append_nil first]
  exact h.bind fun value => follows_pure (result value)

theorem Follows.wrap {action : FileTree → Lowering α} (h : Follows action first)
    (around : LowerFault → LowerFault) :
    Follows (fun tree => wrap around (action tree)) (first.map (LowerStep.within around)) where
  stops tree fault hfault embedded := by
    rw [LowerStep.faults_within, List.head?_map, Option.map_eq_some_iff] at hfault
    obtain ⟨inner, hinner, rfl⟩ := hfault
    rw [Lowering.wrap, h.stops tree inner hinner]
  passes tree hfaults := by
    rw [LowerStep.faults_within, List.map_eq_nil_iff] at hfaults
    obtain ⟨result, hresult⟩ := h.passes tree hfaults
    refine ⟨result, fun tree' hsame embedded => ?_⟩
    rw [LowerStep.files_within] at hsame ⊢
    rw [Lowering.wrap, hresult tree' hsame]

theorem follows_mapM {action : FileTree → α → Lowering β} {stepsOf : α → List LowerStep}
    (h : ∀ item, Follows (action · item) (stepsOf item)) (items : List α) :
    Follows (fun tree => items.mapM (action tree)) (items.flatMap stepsOf) := by
  induction items with
  | nil => exact follows_pure []
  | cons item rest ih =>
      simp only [List.mapM_cons, List.flatMap_cons]
      exact (h item).bind fun result => ih.andThen fun results => result :: results

theorem follows_defaulted {part : Except Wire.DefaultFault α} {faults : List Wire.DefaultFault}
    (h : Stops faults part) :
    Follows (fun _ => defaulted part) (faults.map fun fault => .reject (.badDefault fault)) := by
  cases h with
  | never result => exact follows_pure result
  | first fault later => exact follows_throw _ _

/-! ## Options -/

def optionSteps (scope : EmbedScope) (path : SourcePath) (options : Option Schema.OptionSet) :
    List LowerStep :=
  (scope.asked (optionAddresses path options)).map fun file => .embed file id

@[simp] theorem files_optionSteps (scope : EmbedScope) (path : SourcePath)
    (options : Option Schema.OptionSet) :
    LowerStep.files (optionSteps scope path options) =
      scope.asked (optionAddresses path options) := by
  rw [LowerStep.files, optionSteps, List.filterMap_map]
  exact List.filterMap_some

theorem faults_optionSteps (scope : EmbedScope) (tree : FileTree) (path : SourcePath)
    (options : Option Schema.OptionSet) :
    LowerStep.faults tree (optionSteps scope path options) =
      ((scope.asked (optionAddresses path options)).filterMap (scope.on tree).readFault?).map
        .embed := by
  rw [LowerStep.faults, optionSteps, List.filterMap_map, List.map_filterMap]
  refine List.filterMap_congr fun file _ => ?_
  simp only [Function.comp_apply, LowerStep.fault?, EmbedScope.readFault?, EmbedScope.on]
  cases tree.read file <;> rfl

theorem extensionEntries_on {scope : EmbedScope} {tree tree' : FileTree} {path : SourcePath}
    {options : Option Schema.OptionSet}
    (hread : ∀ file ∈ scope.asked (optionAddresses path options),
      ∃ contents, tree.read file = .ok contents ∧ tree'.read file = .ok contents) :
    (scope.on tree').extensionEntries path (Schema.customOptions options) =
      (scope.on tree).extensionEntries path (Schema.customOptions options) := by
  refine EmbedScope.extensionEntries_congr fun address haddress => ?_
  funext scalar
  have hfile : ∀ tree, (scope.on tree).embedFile? address = scope.embedFile? address :=
    fun _ => rfl
  rw [EmbedScope.scalarAt, EmbedScope.scalarAt, hfile, hfile]
  cases hasked : scope.embedFile? address with
  | none => rfl
  | some file =>
      obtain ⟨contents, htree, htree'⟩ :=
        hread file (List.mem_filterMap.mpr ⟨address, haddress, hasked⟩)
      simp [EmbedScope.on, htree, htree']

theorem follows_options (ctx : Context) (path : SourcePath) (declared : Option Schema.OptionSet) :
    Follows (fun tree => options (ctx.on tree) path declared)
      (optionSteps ctx.scope path declared) where
  stops tree fault hfault embedded := by
    rw [faults_optionSteps, List.head?_map, List.head?_filterMap, Option.map_eq_some_iff] at hfault
    obtain ⟨missing, hmissing, rfl⟩ := hfault
    have hrun : (ctx.scope.on tree).unwrapOptions path declared embedded = .error missing := by
      rw [EmbedScope.unwrapOptions_eq_closed, EmbedScope.asked_on,
        EmbedScope.closed_of_fault hmissing]
    rw [options, Context.on, hrun]
  passes tree hfaults := by
    rw [faults_optionSteps, List.map_eq_nil_iff, List.filterMap_eq_nil_iff] at hfaults
    refine ⟨Table.ofList ((ctx.scope.on tree).extensionEntries path
      (Schema.customOptions declared)), fun tree' hsame embedded => ?_⟩
    rw [files_optionSteps] at hsame ⊢
    have hread : ∀ file ∈ ctx.scope.asked (optionAddresses path declared),
        ∃ contents, tree.read file = .ok contents ∧ tree'.read file = .ok contents := by
      intro file hfile
      obtain ⟨contents, hcontents⟩ := EmbedScope.readFault?_eq_none_iff.mp (hfaults file hfile)
      exact ⟨contents, hcontents, (hsame file hfile).read hcontents⟩
    have hnone : (ctx.scope.asked (optionAddresses path declared)).findSome?
        (ctx.scope.on tree').readFault? = none := by
      refine List.findSome?_eq_none_iff.mpr fun file hfile => ?_
      obtain ⟨contents, -, hcontents⟩ := hread file hfile
      exact EmbedScope.readFault?_eq_none_iff.mpr ⟨contents, hcontents⟩
    have hrun : (ctx.scope.on tree').unwrapOptions path declared embedded =
        .ok (Table.ofList ((ctx.scope.on tree).extensionEntries path
          (Schema.customOptions declared)),
          embedded ++ ctx.scope.asked (optionAddresses path declared)) := by
      rw [EmbedScope.unwrapOptions_eq_closed, EmbedScope.asked_on,
        EmbedScope.closed_of_no_fault hnone, extensionEntries_on hread]
    rw [options, Context.on, hrun]

/-! ## Elements -/

def defaultFaults (pool : Schema.Pool) (part : Schema.BareField) : List Wire.DefaultFault :=
  match Lower.fieldDefault pool part with
  | .ok _ => []
  | .error fault => [fault]

theorem stops_wireField (pool : Schema.Pool) (part : Schema.BareField) :
    Stops (defaultFaults pool part) (Lower.wireField pool part) := by
  rw [defaultFaults, Lower.wireField]
  cases Lower.fieldDefault pool part with
  | ok default => exact .never _
  | error fault => exact .first fault []

theorem stops_entryPairs (pool : Schema.Pool) (declared : Schema.Field) :
    Stops (declared.tagged.tail.flatMap (defaultFaults pool))
      (Lower.entryPairs pool declared.type) := by
  rw [Schema.Field.tagged, List.tail_cons]
  cases declared.type with
  | single type => exact .never []
  | map entry =>
      exact (stops_wireField pool entry.key).bind fun key =>
        (stops_wireField pool entry.value).bind fun value => .never _

theorem stops_structTag (pool : Schema.Pool) (declared : Schema.Field) :
    Stops (declared.tagged.flatMap (defaultFaults pool)) (Lower.structTag pool declared) := by
  have hsplit : declared.tagged.flatMap (defaultFaults pool) =
      defaultFaults pool declared.bare ++
        (declared.tagged.tail.flatMap (defaultFaults pool) ++ []) := by
    rw [List.append_nil]
    rfl
  rw [hsplit]
  exact (stops_wireField pool declared.bare).bind fun own =>
    (stops_entryPairs pool declared).bind fun entry => .never _

/-- The defaults in the tags of a field come before its options. -/
def elementSteps (ctx : Context) (lookup : SourcePath × Schema.Element) : List LowerStep :=
  (match lookup.2 with
    | .field declared => (declared.tagged.flatMap (defaultFaults ctx.pool)).map fun fault =>
        .reject (.badDefault fault)
    | _ => []) ++ optionSteps ctx.scope (lookup.2.optionsPath lookup.1) lookup.2.options

theorem elementSteps_of_not_isPart (ctx : Context) (path : SourcePath) {whole : Schema.Element}
    (h : whole.isPart = false) :
    elementSteps ctx (path, whole) =
      optionSteps ctx.scope (whole.optionsPath path) whole.options := by
  cases whole with
  | field _ => cases h
  | _ => rfl

@[simp] theorem files_elementSteps (ctx : Context) (lookup : SourcePath × Schema.Element) :
    LowerStep.files (elementSteps ctx lookup) =
      ctx.scope.asked (optionAddresses (lookup.2.optionsPath lookup.1) lookup.2.options) := by
  obtain ⟨path, element⟩ := lookup
  rw [elementSteps, LowerStep.files_append, files_optionSteps]
  cases element with
  | field declared => simp [LowerStep.files, LowerStep.file?, List.filterMap_map]
  | _ => rfl

theorem follows_field (ctx : Context) (oneofs : List Schema.Oneof)
    (declared : SourcePath × Schema.Field) :
    Follows (fun tree => field (ctx.on tree) declared.1 oneofs declared.2)
      (elementSteps ctx (declared.1, .field declared.2)) := by
  have htag := stops_structTag ctx.pool declared.2
  simp only [field, Context.pool_on, elementSteps]
  cases hwire : Lower.wireField ctx.pool declared.2.bare with
  | error fault =>
      have hstruct : Lower.structTag ctx.pool declared.2 = .error fault := by
        rw [Lower.structTag, hwire]
        rfl
      have hfaults := (htag.error_iff fault).mp hstruct
      obtain ⟨later, hlater⟩ := List.head?_eq_some_iff.mp hfaults
      rw [hlater]
      exact follows_throw _ _
  | ok wire =>
      exact (follows_defaulted htag).bind fun structTag =>
        (follows_options ctx _ _).andThen fun _ => _

theorem follows_enumValue (ctx : Context) (declared : SourcePath × Schema.EnumValue) :
    Follows (fun tree => enumValue (ctx.on tree) declared.1 declared.2)
      (elementSteps ctx (declared.1, .value declared.2)) :=
  (follows_options ctx _ _).andThen fun _ => _

theorem follows_rpc (ctx : Context) (service : String) (declared : SourcePath × Schema.Method) :
    Follows (fun tree => rpc (ctx.on tree) declared.1 service declared.2)
      (elementSteps ctx (declared.1, .method declared.2)) :=
  (follows_options ctx _ _).andThen fun _ => _

end Lowering

/-! ## Groups -/

namespace Schema

def Element.around : Element → LowerFault → LowerFault
  | .file _ | .value _ => id
  | .message declared => .inMessage declared.info.fullName
  | .field declared => .inField declared.name
  | .enum declared => .inEnum declared.fullName
  | .service declared => .inService declared.fullName
  | .method declared => .inRpc declared.name

def ElementGroup.steps (ctx : Lowering.Context) (group : ElementGroup) : List LowerStep :=
  ((Lowering.placed group.path 2 0 group.parts).flatMap (fun lookup =>
      (Lowering.elementSteps ctx lookup).map (LowerStep.within lookup.2.around)) ++
    Lowering.elementSteps ctx (group.path, group.whole)).map (LowerStep.within group.whole.around)

def File.steps (ctx : Lowering.Context) (file : File) : List LowerStep :=
  file.groups.flatMap (·.steps ctx)

end Schema

namespace Lowering

theorem follows_group {α β γ : Type} (ctx : Context) (path : SourcePath) {whole : Schema.Element}
    (hwhole : whole.isPart = false) {part : α → Schema.Element}
    {action : FileTree → SourcePath × α → Lowering β}
    (hparts : ∀ declared, Follows (action · declared)
      ((elementSteps ctx (declared.1, part declared.2)).map
        (LowerStep.within (part declared.2).around)))
    (items : List α) (result : List β → OptionMap → γ) :
    Follows (fun tree => wrap whole.around (do
        let parts ← (placed path 2 0 items).mapM (action tree)
        let found ← options (ctx.on tree) (whole.optionsPath path) whole.options
        return result parts found))
      (Schema.ElementGroup.steps ctx ⟨path, whole, items.map part⟩) := by
  rw [Schema.ElementGroup.steps, placed_map, List.flatMap_map,
    elementSteps_of_not_isPart ctx path hwhole]
  refine Follows.wrap ?_ _
  exact (follows_mapM hparts _).bind fun parts =>
    (follows_options ctx _ _).andThen fun found => result parts found

theorem follows_message (ctx : Context) (declared : SourcePath × Schema.Message) :
    Follows (fun tree => wrappedMessage (ctx.on tree) declared)
      ((Schema.messageGroup declared).steps ctx) := by
  have hwhole : (Schema.Element.message declared.2).isPart = false := rfl
  simp only [wrappedMessage, message, fields_eq_mapM, Context.id_on]
  exact follows_group ctx declared.1 hwhole (fun field => (follows_field ctx _ field).wrap _)
    declared.2.info.fieldsByNumber _

theorem follows_enum (ctx : Context) (declared : SourcePath × Schema.Enum) :
    Follows (fun tree => wrappedEnum (ctx.on tree) declared)
      ((Schema.enumGroup declared).steps ctx) := by
  have hwhole : (Schema.Element.enum declared.2).isPart = false := rfl
  have hvalue : ∀ value : SourcePath × Schema.EnumValue,
      Follows (fun tree => enumValue (ctx.on tree) value.1 value.2)
        ((elementSteps ctx (value.1, .value value.2)).map (LowerStep.within id)) := by
    intro value
    rw [LowerStep.map_within_id]
    exact follows_enumValue ctx value
  simp only [wrappedEnum, enum, enumValues_eq_mapM, Context.id_on]
  exact follows_group ctx declared.1 hwhole hvalue declared.2.valuesByNumber _

theorem follows_service (ctx : Context) (declared : SourcePath × Schema.Service) :
    Follows (fun tree => wrap (.inService declared.2.fullName)
        (service (ctx.on tree) declared.1 declared.2))
      ((Schema.serviceGroup declared).steps ctx) := by
  have hwhole : (Schema.Element.service declared.2).isPart = false := rfl
  simp only [service, rpcs_eq_mapM, Context.id_on, Context.comments_on]
  exact follows_group ctx declared.1 hwhole (fun method => (follows_rpc ctx _ method).wrap _)
    declared.2.methods _

/-! ## Files -/

theorem follows_parts (ctx : Context) (file : Schema.File) :
    Follows (fun tree => parts (ctx.on tree) file) (file.steps ctx) := by
  have hfile : (Schema.fileGroup file).steps ctx = optionSteps ctx.scope [8] file.options := by
    rw [Schema.ElementGroup.steps, Schema.fileGroup, placed, List.flatMap_nil, List.nil_append]
    exact LowerStep.map_within_id _
  rw [Schema.File.steps, file.flatMap_groups, hfile]
  simp only [parts, messages_eq_mapM, enums_eq_mapM, nestedEnums_eq_mapM, services_eq_mapM]
  exact (follows_options ctx _ _).bind fun _ =>
    (follows_mapM (follows_message ctx) _).bind fun _ =>
    (follows_mapM (follows_enum ctx) _).bind fun _ =>
    (follows_mapM (follows_enum ctx) _).bind fun _ =>
    (follows_mapM (follows_service ctx) _).andThen fun _ => _

end Lowering

namespace Schema

theorem ElementGroup.files_steps (ctx : Lowering.Context) (group : ElementGroup) :
    LowerStep.files (group.steps ctx) = group.lookups.flatMap fun lookup =>
      ctx.scope.asked (optionAddresses (lookup.2.optionsPath lookup.1) lookup.2.options) := by
  simp [steps, lookups]

theorem File.files_steps (ctx : Lowering.Context) (file : File) :
    LowerStep.files (file.steps ctx) = file.lookups.flatMap fun lookup =>
      ctx.scope.asked (optionAddresses (lookup.2.optionsPath lookup.1) lookup.2.options) := by
  simp only [steps, lookups, LowerStep.files_flatMap, ElementGroup.files_steps, List.flatMap_assoc]

theorem Linked.embeddedFiles_of_lower {linked : Linked} {files : FileTree} {id : Ast.FileId}
    {lowered : Ast.File} (h : linked.lower files id = .ok lowered) :
    lowered.embeddedFiles = LowerStep.files (linked.file.steps (linked.context files id)) := by
  have hparts := Lowering.follows_parts (linked.context files id) linked.file
  simp only [lower] at h
  split at h
  · cases h
  · rename_i hrun
    cases h
    exact hparts.embedded_eq files hrun

end Schema

end SchemaGo
