import SchemaGo.Proofs.Path.Segments
import SchemaGo.Proofs.Schema.SimpleNames

/-!
# Types among the definitions

The definitions of a file, as far as they are types, are the messages and enums that it declares.
Definitions are added to the known ones only if no name is taken, so the types of a file have
different full names; and a name that is looked up leads to a definition.
-/

namespace SchemaGo.Schema

/-! ## Declared types -/

def ownTypes (declared : String × MessageParts) : List (String × String) :=
  let inside := qualify declared.1 declared.2.name
  (declared.2.name, inside) ::
    declared.2.enums.map fun enum => (enum.name, qualify inside enum.name)

def FileDecl.types (decl : FileDecl) : List (String × String) :=
  (flattenDecls decl.packageName decl.messages).flatMap ownTypes ++
    decl.enums.map fun enum => (enum.name, qualify decl.packageName enum.name)

theorem afterLast_qualify (scope : String) {name : String} (h : IsSimple name) :
    Text.afterLast '.' (qualify scope name) = name := by
  have hwhole : Text.splitAt '.' name.toList = [name.toList] := Text.splitAt_of_not_mem h
  rw [qualify]
  split
  · simp [Text.afterLast, Text.splitOn, hwhole]
  · have hdot : (".".toList : List Char) = ['.'] := rfl
    simp [Text.afterLast, Text.splitOn, String.toList_append, hdot, List.append_assoc,
      Text.splitAt_append_cons, hwhole]

theorem afterLast_of_mem_types {decl : FileDecl} (h : decl.IsSimple) {type : String × String}
    (htype : type ∈ decl.types) : Text.afterLast '.' type.2 = type.1 := by
  rw [FileDecl.types, List.mem_append, List.mem_flatMap] at htype
  obtain ⟨declared, hdeclared, htype⟩ | htype := htype
  · have hsimple := h.messages _ declared hdeclared
    rw [ownTypes, List.mem_cons] at htype
    obtain rfl | htype := htype
    · exact afterLast_qualify _ (hsimple _ List.mem_cons_self)
    · obtain ⟨enum, henum, rfl⟩ := List.mem_map.mp htype
      exact afterLast_qualify _ (hsimple _ (List.mem_cons_of_mem _ (List.mem_map_of_mem henum)))
  · obtain ⟨enum, henum, rfl⟩ := List.mem_map.mp htype
    exact afterLast_qualify _ (h.enums enum henum)

/-! ## Definitions of types -/

def typeNames (symbols : Symbols) : List String :=
  (symbols.filter fun entry => entry.2.kind.isType).map (·.1)

@[simp] theorem typeNames_cons (name file : String) (kind : SymbolKind) (rest : Symbols) :
    typeNames ((name, ⟨kind, file⟩) :: rest) =
      if kind.isType then name :: typeNames rest else typeNames rest := by
  cases h : kind.isType <;> simp [typeNames, h]

@[simp] theorem typeNames_append (first second : Symbols) :
    typeNames (first ++ second) = typeNames first ++ typeNames second := by
  simp [typeNames]

theorem typeNames_flatMap {α : Type} (items : List α) (symbols : α → Symbols) :
    typeNames (items.flatMap symbols) = items.flatMap fun item => typeNames (symbols item) := by
  induction items with
  | nil => rfl
  | cons item rest ih => rw [List.flatMap_cons, typeNames_append, ih, List.flatMap_cons]

@[simp] theorem typeNames_map {α : Type} (items : List α) (name : α → String) (kind : SymbolKind)
    (file : String) :
    typeNames (items.map fun item => (name item, ⟨kind, file⟩)) =
      if kind.isType then items.map name else [] := by
  induction items with
  | nil => simp [typeNames]
  | cons item rest ih =>
      rw [List.map_cons, typeNames_cons, ih]
      split <;> rfl

theorem typeNames_enumSymbols (file scope : String) (enum : EnumDecl) :
    typeNames (enumSymbols file scope enum) = [qualify scope enum.name] := by
  simp [enumSymbols, SymbolKind.isType]

@[simp] theorem typeNames_enums (file scope : String) (enums : List EnumDecl) :
    typeNames (enums.flatMap (enumSymbols file scope)) =
      enums.map fun enum => qualify scope enum.name := by
  simp only [typeNames_flatMap, typeNames_enumSymbols, List.map_eq_flatMap]

@[simp] theorem typeNames_extensions (file scope : String) (extensions : List ExtendDecl) :
    typeNames (extensions.flatMap (extensionSymbols file scope)) = [] := by
  simp [typeNames_flatMap, extensionSymbols, SymbolKind.isType, List.flatMap_eq_nil_iff]

theorem typeNames_partsSymbols (file : String) (dialect : Dialect)
    (declared : String × MessageParts) :
    typeNames (partsSymbols file declared.1 dialect declared.2) =
      (ownTypes declared).map (·.2) := by
  obtain ⟨scope, parts⟩ := declared
  have hsynthetic : typeNames (if parts.isMapEntry then [] else
      (syntheticOneofs dialect parts.fields).map fun name =>
        (qualify (qualify scope parts.name) name, ⟨.oneof, file⟩)) = [] := by
    split <;> simp [typeNames, SymbolKind.isType]
  simp [partsSymbols, hsynthetic, ownTypes, SymbolKind.isType, Function.comp_def]

mutual

theorem messageSymbols_eq (file scope : String) (dialect : Dialect) (message : MessageDecl) :
    messageSymbols file scope dialect message =
      (message.flatten scope).flatMap fun declared =>
        partsSymbols file declared.1 dialect declared.2 := by
  cases message with
  | mk parts nested =>
      rw [messageSymbols, MessageDecl.flatten, List.flatMap_cons,
        messagesSymbols_eq file (qualify scope parts.name) dialect nested]
termination_by structural message

theorem messagesSymbols_eq (file scope : String) (dialect : Dialect)
    (messages : List MessageDecl) :
    messagesSymbols file scope dialect messages =
      (flattenDecls scope messages).flatMap fun declared =>
        partsSymbols file declared.1 dialect declared.2 := by
  cases messages with
  | nil => rfl
  | cons message rest =>
      rw [messagesSymbols, flattenDecls, List.flatMap_append,
        messageSymbols_eq file scope dialect message, messagesSymbols_eq file scope dialect rest]
termination_by structural messages

end

theorem typeNames_symbols (file : String) (decl : FileDecl) :
    typeNames (decl.symbols file) = decl.types.map (·.2) := by
  have hpackages : typeNames (packageSymbols file decl.packageName) = [] := by
    simp [packageSymbols, SymbolKind.isType]
  have hmessages :
      typeNames (messagesSymbols file decl.packageName decl.actualDialect decl.messages) =
        ((flattenDecls decl.packageName decl.messages).flatMap ownTypes).map (·.2) := by
    rw [messagesSymbols_eq, typeNames_flatMap, List.map_flatMap]
    simp only [typeNames_partsSymbols]
  have hservices :
      typeNames (decl.services.flatMap (serviceSymbols file decl.packageName)) = [] := by
    simp [typeNames_flatMap, serviceSymbols, SymbolKind.isType, List.flatMap_eq_nil_iff]
  simp [FileDecl.symbols, hpackages, hmessages, hservices, FileDecl.types, Function.comp_def]

def InFile (file : String) (symbols : Symbols) : Prop := ∀ entry ∈ symbols, entry.2.file = file

section

variable {α : Type} (file : String)

@[simp] theorem inFile_cons (name file' : String) (kind : SymbolKind) (rest : Symbols) :
    InFile file ((name, ⟨kind, file'⟩) :: rest) ↔ file' = file ∧ InFile file rest := by
  simp [InFile]

@[simp] theorem inFile_append (first second : Symbols) :
    InFile file (first ++ second) ↔ InFile file first ∧ InFile file second :=
  List.forall_mem_append

@[simp] theorem inFile_map (items : List α) (name : α → String) (kind : SymbolKind) :
    InFile file (items.map fun item => (name item, ⟨kind, file⟩)) := by
  simp [InFile]

@[simp] theorem inFile_flatMap (items : List α) (symbols : α → Symbols) :
    InFile file (items.flatMap symbols) ↔ ∀ item ∈ items, InFile file (symbols item) := by
  simp only [InFile, List.mem_flatMap]
  constructor
  · exact fun h item hitem entry hentry => h entry ⟨item, hitem, hentry⟩
  · rintro h entry ⟨item, hitem, hentry⟩
    exact h item hitem entry hentry

theorem inFile_partsSymbols (scope : String) (dialect : Dialect) (parts : MessageParts) :
    InFile file (partsSymbols file scope dialect parts) := by
  have hsynthetic : InFile file (if parts.isMapEntry then [] else
      (syntheticOneofs dialect parts.fields).map fun name =>
        (qualify (qualify scope parts.name) name, ⟨.oneof, file⟩)) := by
    split
    · simp [InFile]
    · simp
  simp [partsSymbols, enumSymbols, extensionSymbols, hsynthetic]

theorem inFile_symbols (decl : FileDecl) : InFile file (decl.symbols file) := by
  simp [FileDecl.symbols, packageSymbols, messagesSymbols_eq, inFile_partsSymbols, enumSymbols,
    extensionSymbols, serviceSymbols]

end

/-! ## Adding definitions -/

theorem mem_or_mem_of_addSymbols {known symbols result : Symbols}
    (h : addSymbols known symbols = .ok result) {entry : String × Symbol}
    (hentry : entry ∈ result) : entry ∈ known ∨ entry ∈ symbols := by
  induction symbols generalizing known with
  | nil =>
      cases h
      exact .inl hentry
  | cons first rest ih =>
      obtain ⟨name, symbol⟩ := first
      rw [addSymbols] at h
      split at h
      · obtain hknown | hrest := ih h
        · exact (List.mem_cons.mp hknown).elim (fun hsame => .inr (hsame ▸ List.mem_cons_self)) .inl
        · exact .inr (List.mem_cons_of_mem _ hrest)
      · split at h
        · exact (ih h).imp_right (List.mem_cons_of_mem _)
        · cases h

theorem subset_of_addSymbols {known symbols result : Symbols}
    (h : addSymbols known symbols = .ok result) : known ⊆ result := by
  induction symbols generalizing known with
  | nil =>
      cases h
      exact fun _ => id
  | cons first rest ih =>
      obtain ⟨name, symbol⟩ := first
      rw [addSymbols] at h
      split at h
      · exact fun entry hentry => ih h (List.mem_cons_of_mem _ hentry)
      · split at h
        · exact ih h
        · cases h

/-- Types are added only under names that are not taken, neither before nor by each other. -/
theorem nodup_typeNames_of_addSymbols {known symbols result : Symbols}
    (h : addSymbols known symbols = .ok result) :
    (typeNames symbols).Nodup ∧ ∀ name ∈ typeNames symbols, known.lookup name = none := by
  induction symbols generalizing known with
  | nil => simp [typeNames]
  | cons first rest ih =>
      obtain ⟨name, kind, file⟩ := first
      rw [addSymbols] at h
      rw [typeNames_cons]
      split at h
      · rename_i hfree
        obtain ⟨hnodup, hnone⟩ := ih h
        have hapart : ∀ other ∈ typeNames rest, other ≠ name ∧ known.lookup other = none := by
          intro other hother
          have hlookup := hnone other hother
          rw [List.lookup_cons] at hlookup
          split at hlookup
          · cases hlookup
          · rename_i hne
            exact ⟨by simpa using hne, hlookup⟩
        split
        · refine ⟨List.nodup_cons.mpr ⟨fun hname => (hapart name hname).1 rfl, hnodup⟩, ?_⟩
          exact List.forall_mem_cons.mpr ⟨hfree, fun other hother => (hapart other hother).2⟩
        · exact ⟨hnodup, fun other hother => (hapart other hother).2⟩
      · split at h
        · rename_i hpackages
          have hpackage : kind = .package := by
            simpa using (Bool.and_eq_true_iff.mp hpackages).2
          rw [hpackage]
          exact ih h
        · cases h

/-! ## Looking up -/

structure TypeRef.IsKnown (type : TypeRef) (symbols : Symbols) : Prop where
  name : type.name = Text.afterLast '.' type.fullName
  defined : ∃ kind, (type.fullName, ⟨kind, type.file⟩) ∈ symbols ∧ kind.isType

theorem TypeRef.IsKnown.mono {type : TypeRef} {symbols symbols' : Symbols}
    (h : type.IsKnown symbols) (hsubset : symbols ⊆ symbols') : type.IsKnown symbols' := by
  obtain ⟨hname, kind, hmem, hkind⟩ := h
  exact ⟨hname, kind, hsubset hmem, hkind⟩

namespace Scope

variable {scope : Scope} {accepts : SymbolKind → Bool}

theorem mem_of_findKind? {fullName : String} {found : String × Symbol}
    (h : scope.findKind? accepts fullName = some found) :
    found ∈ scope.symbols ∧ accepts found.2.kind := by
  obtain ⟨symbol, hfind, rfl⟩ := Option.map_eq_some_iff.mp h
  obtain ⟨hfind, haccepts⟩ := Option.filter_eq_some_iff.mp hfind
  obtain ⟨hlookup, -⟩ := Option.filter_eq_some_iff.mp hfind
  obtain ⟨before, after, hsymbols, -⟩ := List.lookup_eq_some_iff.mp hlookup
  exact ⟨by simp [hsymbols], haccepts⟩

theorem mem_of_resolveIn {first name : String} {scopes : List String} {found : String × Symbol}
    (h : scope.resolveIn accepts first name scopes = some found) :
    found ∈ scope.symbols ∧ accepts found.2.kind := by
  induction scopes with
  | nil => cases h
  | cons parent outer ih =>
      rw [resolveIn] at h
      split at h
      · split at h
        · rename_i hfound
          exact Option.some.inj h ▸ mem_of_findKind? hfound
        · exact ih h
      · split at h
        · exact mem_of_findKind? h
        · exact ih h

theorem mem_of_resolve? {around name : String} {found : String × Symbol}
    (h : scope.resolve? accepts around name = some found) :
    found ∈ scope.symbols ∧ accepts found.2.kind := by
  rw [resolve?] at h
  split at h
  · exact mem_of_findKind? h
  · exact mem_of_resolveIn h

theorem isKnown_of_resolveType {around name : String} {type : TypeRef} {kind : SymbolKind}
    (h : scope.resolveType SymbolKind.isType around name = .ok (type, kind)) :
    type.IsKnown scope.symbols := by
  rw [resolveType] at h
  split at h
  · cases h
  · rename_i fullName symbol hresolve
    cases h
    obtain ⟨hmem, hkind⟩ := mem_of_resolve? hresolve
    exact ⟨rfl, symbol.kind, hmem, hkind⟩

end Scope

end SchemaGo.Schema
