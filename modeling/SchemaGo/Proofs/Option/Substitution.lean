import Mathlib.Data.List.TakeWhile
import SchemaGo.Proofs.Option.Unwrap

/-!
# Unwrapping is a substitution

Unwrapping goes through a value with a cursor and stops at the first file that
cannot be read.  What comes out can be said without a cursor: each scalar is
replaced according to its address, the files are those asked for at the addresses
in order, and the first of them that cannot be read decides about failure.  Either
way the cursor is back at its path, so no later value is misplaced.
-/

namespace SchemaGo

/-! ## Addresses -/

mutual

def RawValue.addresses (path : SourcePath) : RawValue → List SourcePath
  | .scalar _ => [path]
  | .list items => itemAddresses path 0 items
  | .message fields => fieldAddresses path fields
  | .map entries => entryAddresses path entries
termination_by structural value => value

def itemAddresses (path : SourcePath) (index : Nat) : List RawValue → List SourcePath
  | [] => []
  | item :: rest =>
    item.addresses (path ++ [pathStep index]) ++ itemAddresses path (index + 1) rest
termination_by structural items => items

def fieldAddresses (path : SourcePath) : List (Nat × String × RawValue) → List SourcePath
  | [] => []
  | (number, _, field) :: rest =>
    field.addresses (path ++ [pathStep number]) ++ fieldAddresses path rest
termination_by structural fields => fields

def entryAddresses (path : SourcePath) : List (String × RawValue) → List SourcePath
  | [] => []
  | (_, entry) :: rest => entry.addresses path ++ entryAddresses path rest
termination_by structural entries => entries

end

def optionAddresses (path : SourcePath) (options : Option Schema.OptionSet) : List SourcePath :=
  match options with
  | none => []
  | some options => options.custom.flatMap fun (_, number, value) =>
      value.toRaw.addresses (path ++ [pathStep number])

/-! ## Substituting scalars -/

mutual

/-- The value with its scalars replaced according to their addresses.  Fields go by their
capitalised names, and of fields with the same name the last one counts. -/
def RawValue.substitute (scalarAt : SourcePath → Scalar → Scalar) (path : SourcePath) :
    RawValue → OptionValue
  | .scalar scalar => .scalar (scalarAt path scalar)
  | .list items => .list (substituteItems scalarAt path 0 items)
  | .message fields => .map (Table.ofList (substituteFields scalarAt path fields))
  | .map entries => .map (Table.ofList (substituteEntries scalarAt path entries))
termination_by structural value => value

def substituteItems (scalarAt : SourcePath → Scalar → Scalar) (path : SourcePath) (index : Nat) :
    List RawValue → List OptionValue
  | [] => []
  | item :: rest =>
    item.substitute scalarAt (path ++ [pathStep index]) ::
      substituteItems scalarAt path (index + 1) rest
termination_by structural items => items

def substituteFields (scalarAt : SourcePath → Scalar → Scalar) (path : SourcePath) :
    List (Nat × String × RawValue) → List (String × OptionValue)
  | [] => []
  | (number, name, field) :: rest =>
    (Go.capitalize name, field.substitute scalarAt (path ++ [pathStep number])) ::
      substituteFields scalarAt path rest
termination_by structural fields => fields

def substituteEntries (scalarAt : SourcePath → Scalar → Scalar) (path : SourcePath) :
    List (String × RawValue) → List (String × OptionValue)
  | [] => []
  | (key, entry) :: rest =>
    (key, entry.substitute scalarAt path) :: substituteEntries scalarAt path rest
termination_by structural entries => entries

end

section

variable {scalarAt scalarAt' : SourcePath → Scalar → Scalar}

mutual

theorem substitute_congr (path : SourcePath) (value : RawValue)
    (h : ∀ address ∈ value.addresses path, scalarAt address = scalarAt' address) :
    value.substitute scalarAt path = value.substitute scalarAt' path := by
  cases value with
  | scalar scalar =>
      rw [RawValue.substitute, RawValue.substitute, h path (List.mem_singleton.mpr rfl)]
  | list items =>
      rw [RawValue.substitute, RawValue.substitute, substituteItems_congr path 0 items h]
  | message fields =>
      rw [RawValue.substitute, RawValue.substitute, substituteFields_congr path fields h]
  | map entries =>
      rw [RawValue.substitute, RawValue.substitute, substituteEntries_congr path entries h]
termination_by structural value

theorem substituteItems_congr (path : SourcePath) (index : Nat) (items : List RawValue)
    (h : ∀ address ∈ itemAddresses path index items, scalarAt address = scalarAt' address) :
    substituteItems scalarAt path index items = substituteItems scalarAt' path index items := by
  cases items with
  | nil => rfl
  | cons item rest =>
      rw [itemAddresses, List.forall_mem_append] at h
      rw [substituteItems, substituteItems, substitute_congr _ item h.1,
        substituteItems_congr path (index + 1) rest h.2]
termination_by structural items

theorem substituteFields_congr (path : SourcePath) (fields : List (Nat × String × RawValue))
    (h : ∀ address ∈ fieldAddresses path fields, scalarAt address = scalarAt' address) :
    substituteFields scalarAt path fields = substituteFields scalarAt' path fields := by
  cases fields with
  | nil => rfl
  | cons field rest =>
      obtain ⟨number, name, value⟩ := field
      rw [fieldAddresses, List.forall_mem_append] at h
      rw [substituteFields, substituteFields, substitute_congr _ value h.1,
        substituteFields_congr path rest h.2]
termination_by structural fields

theorem substituteEntries_congr (path : SourcePath) (entries : List (String × RawValue))
    (h : ∀ address ∈ entryAddresses path entries, scalarAt address = scalarAt' address) :
    substituteEntries scalarAt path entries = substituteEntries scalarAt' path entries := by
  cases entries with
  | nil => rfl
  | cons entry rest =>
      obtain ⟨key, value⟩ := entry
      rw [entryAddresses, List.forall_mem_append] at h
      rw [substituteEntries, substituteEntries, substitute_congr path value h.1,
        substituteEntries_congr path rest h.2]
termination_by structural entries

end

end

theorem substituteEntries_eq_map (scalarAt : SourcePath → Scalar → Scalar) (path : SourcePath)
    (entries : List (String × RawValue)) :
    substituteEntries scalarAt path entries =
      entries.map fun entry => (entry.1, entry.2.substitute scalarAt path) := by
  induction entries with
  | nil => rfl
  | cons entry rest ih => rw [substituteEntries, ih, List.map_cons]

theorem substitute_map_of_isSorted (scalarAt : SourcePath → Scalar → Scalar) (path : SourcePath)
    {entries : Table RawValue} (h : Table.IsSorted entries) :
    (RawValue.map entries).substitute scalarAt path =
      .map (entries.map fun entry => (entry.1, entry.2.substitute scalarAt path)) := by
  have hsorted := (Table.isSorted_map fun _ value => RawValue.substitute scalarAt path value).mpr h
  rw [RawValue.substitute, substituteEntries_eq_map, Table.ofList_of_isSorted hsorted]

/-! ## Files in order -/

namespace Cursor

def reading (cursor : Cursor) (files : List String) : Cursor :=
  { cursor with embedded := cursor.embedded ++ files }

@[simp] theorem path_reading (cursor : Cursor) (files : List String) :
    (cursor.reading files).path = cursor.path := rfl

@[simp] theorem reading_nil (cursor : Cursor) : cursor.reading [] = cursor := by
  simp [reading]

@[simp] theorem reading_reading (cursor : Cursor) (files more : List String) :
    (cursor.reading files).reading more = cursor.reading (files ++ more) := by
  simp [reading]

@[simp] theorem pop_reading_push (cursor : Cursor) (step : Int) (files : List String) :
    ((cursor.push step).reading files).pop = cursor.reading files := by
  simp [reading, push, pop]

end Cursor

namespace EmbedScope

variable (scope : EmbedScope)

def embedFile? (address : SourcePath) : Option String :=
  (scope.comments.get? address.render).bind fun comment =>
    ((Directive.parse comment).find? fun directive => directive.name == Directive.embed).map
      fun directive => PathText.join scope.directory directive.value

theorem target?_eq_embedFile? (address : SourcePath) :
    scope.target? address = scope.embedFile? address := by
  rw [target?, embedFile?, Comments.directiveValues]
  cases scope.comments.get? address.render with
  | none => rfl
  | some comment =>
      simp only [List.head?_map, List.head?_filter, Option.map_map]
      rfl

def asked (addresses : List SourcePath) : List String := addresses.filterMap scope.embedFile?

def readFault? (file : String) : Option EmbedFault :=
  match scope.files.read file with
  | .ok _ => none
  | .error cause => some ⟨file, cause⟩

def scalarAt (address : SourcePath) (scalar : Scalar) : Scalar :=
  match (scope.embedFile? address).map scope.files.read with
  | some (.ok contents) => .literal (byteLiteral contents)
  | _ => scalar

/-- The end of reading files in order: the first that cannot be read is the fault, and the files
before it have been read. -/
def conclude {α : Type} (files : List String) (result : α) (cursor : Cursor) :
    Except EmbedFault α × Cursor :=
  (match files.findSome? scope.readFault? with
    | some fault => .error fault
    | none => .ok result,
    cursor.reading (files.takeWhile fun file => (scope.readFault? file).isNone))

variable {scope} {α : Type} {files : List String} {fault : EmbedFault}

theorem conclude_of_fault (h : files.findSome? scope.readFault? = some fault) (result : α)
    (cursor : Cursor) :
    scope.conclude files result cursor = (.error fault,
      cursor.reading (files.takeWhile fun file => (scope.readFault? file).isNone)) := by
  rw [conclude, h]

theorem takeWhile_of_no_fault (h : files.findSome? scope.readFault? = none) :
    files.takeWhile (fun file => (scope.readFault? file).isNone) = files := by
  rw [List.takeWhile_eq_self_iff]
  intro file hfile
  simpa using List.findSome?_eq_none_iff.mp h file hfile

theorem conclude_of_no_fault (h : files.findSome? scope.readFault? = none) (result : α)
    (cursor : Cursor) :
    scope.conclude files result cursor = (.ok result, cursor.reading files) := by
  rw [conclude, h, takeWhile_of_no_fault h]

theorem conclude_append_of_fault (h : files.findSome? scope.readFault? = some fault)
    (more : List String) (result : α) (cursor : Cursor) :
    scope.conclude (files ++ more) result cursor = (.error fault,
      cursor.reading (files.takeWhile fun file => (scope.readFault? file).isNone)) := by
  have hfault : (files ++ more).findSome? scope.readFault? = some fault := by
    rw [List.findSome?_append, h, Option.some_or]
  have hshort : (files.takeWhile fun file => (scope.readFault? file).isNone).length ≠
      files.length := by
    intro hlength
    have hself := (List.takeWhile_prefix _).eq_of_length hlength
    obtain ⟨file, hfile, hread⟩ := List.exists_of_findSome?_eq_some h
    have hnone := List.takeWhile_eq_self_iff.mp hself file hfile
    simp [hread] at hnone
  rw [conclude_of_fault hfault, List.takeWhile_append, if_neg hshort]

theorem conclude_append_of_no_fault (h : files.findSome? scope.readFault? = none)
    (more : List String) (result : α) (cursor : Cursor) :
    scope.conclude (files ++ more) result cursor =
      scope.conclude more result (cursor.reading files) := by
  have hall := List.takeWhile_eq_self_iff.mp (takeWhile_of_no_fault h)
  rw [conclude, conclude, List.findSome?_append, h, Option.none_or,
    List.takeWhile_append_of_pos hall, Cursor.reading_reading]

@[simp] theorem asked_append (scope : EmbedScope) (addresses more : List SourcePath) :
    scope.asked (addresses ++ more) = scope.asked addresses ++ scope.asked more :=
  List.filterMap_append

/-! ## Unwrapping -/

theorem unwrapScalar_eq_conclude (scope : EmbedScope) (scalar : Scalar) (cursor : Cursor) :
    scope.unwrapScalar scalar cursor = scope.conclude (scope.asked [cursor.path])
      (.scalar (scope.scalarAt cursor.path scalar)) cursor := by
  rw [unwrapScalar, target?_eq_embedFile?]
  cases hfile : scope.embedFile? cursor.path with
  | none => simp [asked, conclude, scalarAt, hfile]
  | some file =>
      cases hread : scope.files.read file with
      | error cause => simp [asked, conclude, readFault?, hfile, hread]
      | ok contents =>
          simp [asked, conclude, scalarAt, readFault?, hfile, hread, Cursor.reading]

mutual

theorem unwrap_eq_conclude (scope : EmbedScope) (value : RawValue) (cursor : Cursor) :
    scope.unwrap value cursor = scope.conclude (scope.asked (value.addresses cursor.path))
      (value.substitute scope.scalarAt cursor.path) cursor := by
  cases value with
  | scalar scalar => exact unwrapScalar_eq_conclude scope scalar cursor
  | list items =>
      rw [unwrap, unwrapItems_eq_conclude scope 0 items, RawValue.addresses, RawValue.substitute]
      cases hfault : (scope.asked (itemAddresses cursor.path 0 items)).findSome?
          scope.readFault? with
      | none => rw [conclude_of_no_fault hfault, conclude_of_no_fault hfault]
      | some fault => rw [conclude_of_fault hfault, conclude_of_fault hfault]
  | message fields =>
      rw [unwrap, unwrapFields_eq_conclude scope [] fields, RawValue.addresses,
        RawValue.substitute]
      cases hfault : (scope.asked (fieldAddresses cursor.path fields)).findSome?
          scope.readFault? with
      | none => rw [conclude_of_no_fault hfault, conclude_of_no_fault hfault]; rfl
      | some fault => rw [conclude_of_fault hfault, conclude_of_fault hfault]
  | map entries =>
      rw [unwrap, unwrapEntries_eq_conclude scope [] entries, RawValue.addresses,
        RawValue.substitute]
      cases hfault : (scope.asked (entryAddresses cursor.path entries)).findSome?
          scope.readFault? with
      | none => rw [conclude_of_no_fault hfault, conclude_of_no_fault hfault]; rfl
      | some fault => rw [conclude_of_fault hfault, conclude_of_fault hfault]
termination_by structural value

theorem unwrapItems_eq_conclude (scope : EmbedScope) (index : Nat) (items : List RawValue)
    (cursor : Cursor) :
    unwrapItems scope index items cursor =
      scope.conclude (scope.asked (itemAddresses cursor.path index items))
        (substituteItems scope.scalarAt cursor.path index items) cursor := by
  cases items with
  | nil => simp [unwrapItems, itemAddresses, substituteItems, asked, conclude]
  | cons item rest =>
      have hitem := unwrap_eq_conclude scope item (cursor.push (pathStep index))
      rw [Cursor.path_push] at hitem
      rw [unwrapItems, itemAddresses, substituteItems, asked_append, hitem]
      cases hfault : (scope.asked (item.addresses (cursor.path ++ [pathStep index]))).findSome?
          scope.readFault? with
      | some fault =>
          simp only [conclude_of_fault hfault, conclude_append_of_fault hfault,
            Cursor.pop_reading_push]
      | none =>
          simp only [conclude_of_no_fault hfault, conclude_append_of_no_fault hfault,
            Cursor.pop_reading_push, unwrapItems_eq_conclude scope (index + 1) rest,
            Cursor.path_reading]
          cases hrest : (scope.asked (itemAddresses cursor.path (index + 1) rest)).findSome?
              scope.readFault? with
          | none => simp only [conclude_of_no_fault hrest]
          | some fault => simp only [conclude_of_fault hrest]
termination_by structural items

theorem unwrapFields_eq_conclude (scope : EmbedScope) (done : OptionMap)
    (fields : List (Nat × String × RawValue)) (cursor : Cursor) :
    unwrapFields scope done fields cursor =
      scope.conclude (scope.asked (fieldAddresses cursor.path fields))
        ((substituteFields scope.scalarAt cursor.path fields).foldl
          (fun table (key, value) => Table.insert key value table) done) cursor := by
  cases fields with
  | nil => simp [unwrapFields, fieldAddresses, substituteFields, asked, conclude]
  | cons field rest =>
      obtain ⟨number, name, value⟩ := field
      have hvalue := unwrap_eq_conclude scope value (cursor.push (pathStep number))
      rw [Cursor.path_push] at hvalue
      rw [unwrapFields, fieldAddresses, substituteFields, asked_append, hvalue]
      cases hfault : (scope.asked (value.addresses (cursor.path ++ [pathStep number]))).findSome?
          scope.readFault? with
      | some fault =>
          simp only [conclude_of_fault hfault, conclude_append_of_fault hfault,
            Cursor.pop_reading_push]
      | none =>
          simp only [conclude_of_no_fault hfault, conclude_append_of_no_fault hfault,
            Cursor.pop_reading_push, unwrapFields_eq_conclude scope _ rest,
            Cursor.path_reading, List.foldl_cons]
termination_by structural fields

theorem unwrapEntries_eq_conclude (scope : EmbedScope) (done : OptionMap)
    (entries : List (String × RawValue)) (cursor : Cursor) :
    unwrapEntries scope done entries cursor =
      scope.conclude (scope.asked (entryAddresses cursor.path entries))
        ((substituteEntries scope.scalarAt cursor.path entries).foldl
          (fun table (key, value) => Table.insert key value table) done) cursor := by
  cases entries with
  | nil => simp [unwrapEntries, entryAddresses, substituteEntries, asked, conclude]
  | cons entry rest =>
      obtain ⟨key, value⟩ := entry
      have hvalue := unwrap_eq_conclude scope value cursor
      rw [unwrapEntries, entryAddresses, substituteEntries, asked_append, hvalue]
      cases hfault : (scope.asked (value.addresses cursor.path)).findSome? scope.readFault? with
      | some fault => simp only [conclude_of_fault hfault, conclude_append_of_fault hfault]
      | none =>
          simp only [conclude_of_no_fault hfault, conclude_append_of_no_fault hfault,
            unwrapEntries_eq_conclude scope _ rest, Cursor.path_reading, List.foldl_cons]
termination_by structural entries

end

/-- Unwrapping replaces each scalar according to its address, reads the files asked for in the order
of the addresses and fails for the first one that cannot be read.  Entries of a map in the order of
its keys stay as they are. -/
theorem unwrap_eq_substitute (scope : EmbedScope) (value : RawValue) (cursor : Cursor) :
    scope.unwrap value cursor = scope.conclude (scope.asked (value.addresses cursor.path))
      (value.substitute scope.scalarAt cursor.path) cursor ∧
    ∀ (entries : Table RawValue) (path : SourcePath), Table.IsSorted entries →
      (RawValue.map entries).substitute scope.scalarAt path =
        .map (entries.map fun entry => (entry.1, entry.2.substitute scope.scalarAt path)) :=
  ⟨unwrap_eq_conclude scope value cursor, fun _ path hsorted =>
    substitute_map_of_isSorted scope.scalarAt path hsorted⟩

def sampleScope : EmbedScope where
  comments := Comments.empty
    |>.insert (SourcePath.render [8, 50001, 1, 1]) "@embed one.bin"
    |>.insert (SourcePath.render [8, 50001, 2]) "@embed two.bin"
  directory := "a"
  files := ⟨["work"], [(["work", "a"], .directory), (["work", "a", "one.bin"], .file [42])]⟩

def sampleEntries : Table RawValue := [("k", .scalar (.int 1)), ("l", .scalar (.int 2))]

def sampleValue : RawValue :=
  .message [(1, "items", .list [.scalar (.string "x"), .scalar (.string "y")]),
    (2, "entries", .map sampleEntries)]

theorem unwrap_eq_substitute_sample :
    Table.IsSorted sampleEntries ∧
    (RawValue.map sampleEntries).substitute sampleScope.scalarAt [] =
      .map [("k", .scalar (.int 1)), ("l", .scalar (.int 2))] ∧
    sampleScope.unwrap sampleValue ⟨[8, 50001], []⟩ =
      (.error ⟨"a/two.bin", .notFound⟩, ⟨[8, 50001], ["a/one.bin"]⟩) := by
  have hsorted : Table.IsSorted sampleEntries := by decide
  have hfault : (sampleScope.asked (sampleValue.addresses [8, 50001])).findSome?
      sampleScope.readFault? = some ⟨"a/two.bin", .notFound⟩ := by decide +kernel
  have hread : (sampleScope.asked (sampleValue.addresses [8, 50001])).takeWhile
      (fun file => (sampleScope.readFault? file).isNone) = ["a/one.bin"] := by decide +kernel
  obtain ⟨hunwrap, hmap⟩ := unwrap_eq_substitute sampleScope sampleValue ⟨[8, 50001], []⟩
  refine ⟨hsorted, hmap sampleEntries [] hsorted, ?_⟩
  rw [hunwrap, conclude_of_fault hfault, hread]
  rfl

/-! ## The way back -/

def FailsAt (scope : EmbedScope) (address : SourcePath) (fault : EmbedFault) : Prop :=
  scope.embedFile? address = some fault.path ∧ scope.files.read fault.path = .error fault.cause

theorem readFault?_eq_some {file : String} (h : scope.readFault? file = some fault) :
    file = fault.path ∧ scope.files.read fault.path = .error fault.cause := by
  rw [readFault?] at h
  split at h
  · cases h
  · rename_i cause hread
    cases h
    exact ⟨rfl, hread⟩

theorem exists_failsAt_of_unwrap {value : RawValue} {cursor : Cursor}
    (h : (scope.unwrap value cursor).1 = .error fault) :
    ∃ address ∈ value.addresses cursor.path, scope.FailsAt address fault := by
  rw [unwrap_eq_conclude] at h
  cases hfault : (scope.asked (value.addresses cursor.path)).findSome? scope.readFault? with
  | none =>
      rw [conclude_of_no_fault hfault] at h
      cases h
  | some first =>
      rw [conclude_of_fault hfault] at h
      obtain rfl : first = fault := Except.error.inj h
      obtain ⟨file, hfile, hread⟩ := List.exists_of_findSome?_eq_some hfault
      obtain ⟨rfl, hcause⟩ := readFault?_eq_some hread
      obtain ⟨address, haddress, hasked⟩ := List.mem_filterMap.mp hfile
      exact ⟨address, haddress, hasked, hcause⟩

theorem result_unwrap_congr (value : RawValue) {cursor other : Cursor}
    (h : other.path = cursor.path) :
    (scope.unwrap value other).1 = (scope.unwrap value cursor).1 := by
  rw [unwrap_eq_conclude, unwrap_eq_conclude, h, conclude, conclude]

/-- Unwrapping comes back to the path where it started: with a value, and just so with the fault of
a file asked for at whatever address below.  The next value is unwrapped as if there had been none
before it. -/
theorem unwrap_restores_path (scope : EmbedScope) (value : RawValue) (cursor : Cursor) :
    (scope.unwrap value cursor).2.path = cursor.path ∧
    (∀ fault, (scope.unwrap value cursor).1 = .error fault →
      ∃ address ∈ value.addresses cursor.path, scope.FailsAt address fault) ∧
    ∀ next, (scope.unwrap next (scope.unwrap value cursor).2).1 = (scope.unwrap next cursor).1 :=
  have hpath := path_unwrap scope value cursor
  ⟨hpath, fun _ h => exists_failsAt_of_unwrap h, fun next => result_unwrap_congr next hpath⟩

def nestedValue : RawValue :=
  .message [(50001, "rules", .list [.scalar (.int 0), .scalar (.int 1), .map sampleEntries])]

theorem unwrap_restores_path_nested :
    (sampleScope.unwrap nestedValue ⟨[8], []⟩).1 = .error ⟨"a/two.bin", .notFound⟩ ∧
    (sampleScope.unwrap nestedValue ⟨[8], []⟩).2.path = [8] ∧
    ∃ address ∈ nestedValue.addresses [8],
      sampleScope.FailsAt address ⟨"a/two.bin", .notFound⟩ := by
  have hfirst : (sampleScope.asked (nestedValue.addresses [8])).findSome?
      sampleScope.readFault? = some ⟨"a/two.bin", .notFound⟩ := by decide +kernel
  have hfault : (sampleScope.unwrap nestedValue ⟨[8], []⟩).1 =
      .error ⟨"a/two.bin", .notFound⟩ := by
    rw [unwrap_eq_conclude, conclude_of_fault hfirst]
  obtain ⟨hpath, hfails, -⟩ := unwrap_restores_path sampleScope nestedValue ⟨[8], []⟩
  exact ⟨hfault, hpath, hfails _ hfault⟩

end EmbedScope

end SchemaGo
