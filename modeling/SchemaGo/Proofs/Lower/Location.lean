import SchemaGo.Proofs.Comment.Render
import SchemaGo.Proofs.Lower.Traversal

/-!
# Source locations of elements

A source location leads from a file to one of its elements: a number names a
repeated field of the description of an element, and the index behind it counts
the items of that field in the order of their declaration.  The options of the
element are one step further.
-/

namespace SchemaGo.Schema

/-- What has options that lowering reads. -/
inductive Element where
  | file (file : File)
  | message (message : Message)
  | field (field : Field)
  | enum (enum : Enum)
  | value (value : EnumValue)
  | service (service : Service)
  | method (method : Method)

namespace Element

def metaType : Element → MetaType
  | .file _ => .file
  | .message _ => .message
  | .field _ => .field
  | .enum _ => .enum
  | .value _ => .enumValue
  | .service _ => .service
  | .method _ => .method

def options : Element → Option OptionSet
  | .file declared => declared.options
  | .message declared => declared.info.options
  | .field declared => declared.options
  | .enum declared => declared.options
  | .value declared => declared.options
  | .service declared => declared.options
  | .method declared => declared.options

def children (element : Element) (name : String) : List Element :=
  match element with
  | .file declared =>
    if name = "message_type" then declared.messages.map .message
    else if name = "enum_type" then declared.enums.map .enum
    else if name = "service" then declared.services.map .service
    else []
  | .message declared =>
    if name = "field" then declared.info.fields.map .field
    else if name = "nested_type" then declared.nested.map .message
    else if name = "enum_type" then declared.info.enums.map .enum
    else []
  | .enum declared => if name = "value" then declared.values.map .value else []
  | .service declared => if name = "method" then declared.methods.map .method else []
  | .field _ | .value _ | .method _ => []

def childrenAt (element : Element) (number : Int) : List Element :=
  match element.metaType.field? number with
  | none => []
  | some named => element.children named.name

def item? {α : Type} (items : List α) (index : Int) : Option α :=
  if index < 0 then none else items[index.toNat]?

def at? (element : Element) : SourcePath → Option Element
  | [] => some element
  | [_] => none
  | number :: index :: rest =>
    (item? (element.childrenAt number) index).bind fun child => child.at? rest

def optionsNumber (element : Element) : Int :=
  ((element.metaType.fields.find? fun field => field.name == "options").map (·.number)).getD 0

/-! ## Paths -/

theorem at?_append {root inner : Element} {path : SourcePath} (h : root.at? path = some inner)
    (steps : SourcePath) : root.at? (path ++ steps) = inner.at? steps := by
  fun_induction at? root path with
  | case1 element =>
      cases h
      rfl
  | case2 => cases h
  | case3 element number index rest ih =>
      obtain ⟨child, hchild, h⟩ := Option.bind_eq_some_iff.mp h
      simp only [List.cons_append, at?, hchild, Option.bind_some]
      exact ih child h

theorem at?_child {root parent : Element} {path : SourcePath}
    (h : root.at? path = some parent) (number : Int) (index : Nat) :
    root.at? (Lowering.child path number index) = (parent.childrenAt number)[index]? := by
  have hstep := at?_append h [number, (index : Int)]
  rw [Lowering.child, hstep, at?]
  cases hitem : (parent.childrenAt number)[index]? <;> simp [item?, hitem, at?]

@[simp] theorem childrenAt_file_messages (file : File) :
    (Element.file file).childrenAt 4 = file.messages.map .message := rfl

@[simp] theorem childrenAt_file_enums (file : File) :
    (Element.file file).childrenAt 5 = file.enums.map .enum := rfl

@[simp] theorem childrenAt_file_services (file : File) :
    (Element.file file).childrenAt 6 = file.services.map .service := rfl

@[simp] theorem childrenAt_message_fields (message : Message) :
    (Element.message message).childrenAt 2 = message.info.fields.map .field := rfl

@[simp] theorem childrenAt_message_nested (message : Message) :
    (Element.message message).childrenAt 3 = message.nested.map .message := rfl

@[simp] theorem childrenAt_message_enums (message : Message) :
    (Element.message message).childrenAt 4 = message.info.enums.map .enum := rfl

@[simp] theorem childrenAt_enum (enum : Enum) :
    (Element.enum enum).childrenAt 2 = enum.values.map .value := rfl

@[simp] theorem childrenAt_service (service : Service) :
    (Element.service service).childrenAt 2 = service.methods.map .method := rfl

/-! ## Locations of options -/

def optionsPath (element : Element) (path : SourcePath) : SourcePath :=
  path ++ [element.optionsNumber]

theorem childrenAt_optionsNumber (element : Element) :
    element.childrenAt element.optionsNumber = [] := by
  cases element <;> rfl

theorem not_prefix_of_childrenAt_eq_nil {root inner other : Element}
    {path steps below : SourcePath} {number : Int} (hinner : root.at? path = some inner)
    (hnone : inner.childrenAt number = []) (hother : root.at? (path ++ steps) = some other)
    (hsteps : steps ≠ []) (hbelow : path ++ [number] <+: below) :
    ¬ path ++ steps <+: below := by
  intro hboth
  rw [at?_append hinner] at hother
  cases steps with
  | nil => exact hsteps rfl
  | cons step rest =>
      have hsame : number = step := by
        rcases List.prefix_or_prefix_of_prefix hbelow hboth with h | h
        · exact (List.cons_prefix_cons.mp ((List.prefix_append_right_inj path).mp h)).1
        · exact (List.cons_prefix_cons.mp ((List.prefix_append_right_inj path).mp h)).1.symm
      subst hsame
      cases rest with
      | nil => cases hother
      | cons index rest => simp [at?, hnone, item?] at hother

/-- Nothing is below the options of two elements at once. -/
theorem options_apart {root inner inner' element element' : Element} {path path' : SourcePath}
    (hinner : root.at? path = some inner) (hinner' : root.at? path' = some inner')
    (hnone : inner.childrenAt element.optionsNumber = [])
    (hnone' : inner'.childrenAt element'.optionsNumber = []) (hne : path ≠ path')
    (below : SourcePath) :
    ¬ (element.optionsPath path <+: below ∧ element'.optionsPath path' <+: below) := by
  rintro ⟨hbelow, hbelow'⟩
  have hpath : path <+: below := (List.prefix_append path _).trans hbelow
  have hpath' : path' <+: below := (List.prefix_append path' _).trans hbelow'
  rcases List.prefix_or_prefix_of_prefix hpath hpath' with ⟨steps, rfl⟩ | ⟨steps, rfl⟩
  · exact not_prefix_of_childrenAt_eq_nil hinner hnone hinner'
      (fun h => hne (by simp [h])) hbelow hpath'
  · exact not_prefix_of_childrenAt_eq_nil hinner' hnone' hinner
      (fun h => hne (by simp [h])) hbelow' hpath

/-! ## Locations of the messages that are lowered -/

mutual

theorem at?_of_mem_emitted {root : Element} (path : SourcePath) (message : Message)
    (h : root.at? path = some (.message message)) :
    ∀ declared ∈ Lowering.emitted path message,
      root.at? declared.1 = some (.message declared.2) := by
  cases message with
  | mk info nested =>
      rw [Lowering.emitted]
      intro declared hdeclared
      rcases List.mem_cons.mp hdeclared with rfl | hdeclared
      · exact h
      · refine at?_of_mem_emittedAll _ path 3 0 nested (fun index => ?_) declared hdeclared
        rw [at?_child h, childrenAt_message_nested, List.getElem?_map, Nat.zero_add]
        rfl
termination_by structural message

theorem at?_of_mem_emittedAll {root : Element} (ignorables : TextSet) (path : SourcePath)
    (number : Int) (first : Nat) (messages : List Message)
    (h : ∀ index, root.at? (Lowering.child path number (first + index)) =
      messages[index]?.map .message) :
    ∀ declared ∈ Lowering.emittedAll ignorables path number first messages,
      root.at? declared.1 = some (.message declared.2) := by
  cases messages with
  | nil => simp [Lowering.emittedAll]
  | cons message rest =>
      rw [Lowering.emittedAll_cons]
      intro declared hdeclared
      rcases List.mem_append.mp hdeclared with hdeclared | hdeclared
      · have hmessage := h 0
        split at hdeclared
        · cases hdeclared
        · exact at?_of_mem_emitted _ message hmessage declared hdeclared
      · refine at?_of_mem_emittedAll ignorables path number (first + 1) rest (fun index => ?_)
          declared hdeclared
        rw [Nat.add_assoc, Nat.add_comm 1 index]
        exact h (index + 1)
termination_by structural messages

end

theorem at?_of_mem_messagesOf {file : File} {declared : SourcePath × Message}
    (h : declared ∈ Lowering.messagesOf file) :
    (Element.file file).at? declared.1 = some (.message declared.2) := by
  have hroot : (Element.file file).at? [] = some (.file file) := rfl
  refine at?_of_mem_emittedAll [] [] 4 0 file.messages (fun index => ?_) declared h
  rw [at?_child hroot, childrenAt_file_messages, List.getElem?_map, Nat.zero_add]

end Element

end SchemaGo.Schema

namespace SchemaGo.Lowering

/-! ## Different messages -/

theorem child_inj {path path' : SourcePath} {number number' : Int} {index index' : Nat}
    (h : child path number index = child path' number' index') :
    path = path' ∧ number = number' ∧ index = index' := by
  obtain ⟨hpath, hstep⟩ := List.append_inj' h rfl
  simp only [List.cons.injEq, Int.natCast_inj, and_true] at hstep
  exact ⟨hpath, hstep⟩

theorem index_eq_of_prefix {path below : SourcePath} {number : Int} {index index' : Nat}
    (h : child path number index <+: below) (h' : child path number index' <+: below) :
    index = index' := by
  have hlength : (child path number index).length = (child path number index').length := by
    simp [child]
  have hsame : child path number index = child path number index' := by
    rcases List.prefix_or_prefix_of_prefix h h' with hstart | hstart
    · exact hstart.eq_of_length hlength
    · exact (hstart.eq_of_length hlength.symm).symm
  exact (child_inj hsame).2.2

mutual

theorem prefix_of_mem_emitted (path : SourcePath) (message : Schema.Message) :
    ∀ declared ∈ emitted path message, path <+: declared.1 := by
  cases message with
  | mk info nested =>
      rw [emitted]
      intro declared hdeclared
      rcases List.mem_cons.mp hdeclared with rfl | hdeclared
      · exact List.prefix_refl path
      · obtain ⟨index, -, hbelow⟩ := prefix_of_mem_emittedAll _ path 3 0 nested declared hdeclared
        exact (List.prefix_append path _).trans hbelow
termination_by structural message

theorem prefix_of_mem_emittedAll (ignorables : TextSet) (path : SourcePath) (number : Int)
    (first : Nat) (messages : List Schema.Message) :
    ∀ declared ∈ emittedAll ignorables path number first messages,
      ∃ index, first ≤ index ∧ child path number index <+: declared.1 := by
  cases messages with
  | nil => simp [emittedAll]
  | cons message rest =>
      rw [emittedAll_cons]
      intro declared hdeclared
      rcases List.mem_append.mp hdeclared with hdeclared | hdeclared
      · split at hdeclared
        · cases hdeclared
        · exact ⟨first, Nat.le_refl first, prefix_of_mem_emitted _ message declared hdeclared⟩
      · obtain ⟨index, hindex, hbelow⟩ :=
          prefix_of_mem_emittedAll ignorables path number (first + 1) rest declared hdeclared
        exact ⟨index, by omega, hbelow⟩
termination_by structural messages

end

mutual

theorem pairwise_emitted (path : SourcePath) (message : Schema.Message) :
    (emitted path message).Pairwise fun declared other => declared.1 ≠ other.1 := by
  cases message with
  | mk info nested =>
      rw [emitted, List.pairwise_cons]
      refine ⟨fun other hother heq => ?_, pairwise_emittedAll _ path 3 0 nested⟩
      obtain ⟨index, -, hbelow⟩ := prefix_of_mem_emittedAll _ path 3 0 nested other hother
      have hlength := hbelow.length_le
      rw [← heq, child, List.length_append] at hlength
      simp only [List.length_cons, List.length_nil] at hlength
      omega
termination_by structural message

theorem pairwise_emittedAll (ignorables : TextSet) (path : SourcePath) (number : Int)
    (first : Nat) (messages : List Schema.Message) :
    (emittedAll ignorables path number first messages).Pairwise
      fun declared other => declared.1 ≠ other.1 := by
  cases messages with
  | nil => simp [emittedAll]
  | cons message rest =>
      have hrest := pairwise_emittedAll ignorables path number (first + 1) rest
      rw [emittedAll_cons]
      split
      · exact hrest
      · refine List.pairwise_append.mpr ⟨pairwise_emitted _ message, hrest, ?_⟩
        intro declared hdeclared other hother heq
        have hbelow := prefix_of_mem_emitted _ message declared hdeclared
        obtain ⟨index, hindex, hbelow'⟩ :=
          prefix_of_mem_emittedAll ignorables path number (first + 1) rest other hother
        rw [← heq] at hbelow'
        have hsame := index_eq_of_prefix hbelow hbelow'
        omega
termination_by structural messages

end

theorem pairwise_placed {α : Type} (path : SourcePath) (number : Int) (index : Nat)
    (items : List α) :
    (placed path number index items).Pairwise fun declared other => declared.1 ≠ other.1 := by
  induction items generalizing index with
  | nil => exact .nil
  | cons item rest ih =>
      rw [placed, List.pairwise_cons]
      refine ⟨fun other hother heq => ?_, ih (index + 1)⟩
      obtain ⟨i, -, hpath⟩ := mem_placed.mp hother
      rw [hpath] at heq
      have hsame := (child_inj heq).2.2
      omega

end SchemaGo.Lowering
