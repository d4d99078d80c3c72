import SchemaGo.Proofs.Success
import SchemaGo.Schema.Load

/-!
# Loading as additions

Whatever loading does to the files loaded so far is a sequence of additions.  A
file is added only when no file has its name yet and its imports are all there.
So what every addition keeps, loading keeps.
-/

namespace SchemaGo.Schema

/-! ## Results of linking -/

theorem linkDeclarations_inv {ctx : LinkContext} {decl : FileDecl} {file : File}
    (h : Yields (linkDeclarations ctx decl) file) :
    Yields (linkMessages ctx decl.packageName [4] 0 decl.messages) file.messages ∧
    Yields (linkEnums ctx decl.packageName [5] 0 decl.enums) file.enums ∧
    file.name = ctx.file ∧
    file.imports = decl.imports.map fun declared => ⟨declared.name, declared.kind⟩ := by
  obtain ⟨_, -, h⟩ := h.of_bind
  obtain ⟨_, -, h⟩ := h.of_bind
  obtain ⟨_, hmessages, h⟩ := h.of_bind
  obtain ⟨_, henums, h⟩ := h.of_bind
  obtain ⟨_, -, h⟩ := h.of_bind
  obtain ⟨_, -, h⟩ := h.of_bind
  obtain ⟨_, -, h⟩ := h.of_bind
  rw [h.of_pure]
  exact ⟨hmessages, henums, rfl, rfl⟩

def Outlines (scope : Scope) (name : String) (decl : FileDecl) (outline : File) : Prop :=
  Yields (linkDeclarations
    ⟨name, decl.actualDialect, scope, fun _ _ _ => .ok (none, [])⟩ decl) outline

/-- The files in which a file that is being linked looks for entries of maps: those before it, its
own outline, and the description of schemas. -/
def outlinePool (builtin : List File) (pool : Pool) (outline : File) : Pool :=
  ⟨pool.files ++ [outline] ++ builtin⟩

theorem linkFile_inv {builtin : List File} {pool : Pool} {scope : Scope} {name : String}
    {decl : FileDecl} {file : File} (h : linkFile builtin pool scope name decl = .ok file) :
    ∃ readOptions linked outline locations,
      Yields (linkDeclarations ⟨name, decl.actualDialect, scope, readOptions⟩ decl) linked ∧
      Outlines scope name decl outline ∧
      file = { linked.mapFields (Field.withEntry (outlinePool builtin pool
        (outline.mapFields (Field.withEntry (outlinePool builtin pool outline))))) with
          locations } := by
  rw [linkFile] at h
  obtain ⟨⟨outline, locations'⟩, houtline, h⟩ := exists_ok_of_bind h
  dsimp only at h
  split at h
  · cases h
  · obtain ⟨⟨linked, locations⟩, hlinked, h⟩ := exists_ok_of_bind h
    cases h
    exact ⟨_, linked, outline, locations, ⟨[], locations, hlinked⟩,
      ⟨[], locations', houtline⟩, rfl⟩

theorem imports_of_linkFile {builtin : List File} {pool : Pool} {scope : Scope} {name : String}
    {decl : FileDecl} {file : File} (h : linkFile builtin pool scope name decl = .ok file) :
    file.name = name ∧
      file.imports = decl.imports.map fun declared => ⟨declared.name, declared.kind⟩ := by
  obtain ⟨readOptions, linked, outline, locations, hlinked, -, rfl⟩ := linkFile_inv h
  exact (linkDeclarations_inv hlinked).2.2

/-! ## Additions -/

theorem Loaded.add_inv {loaded next : Loaded} {name : String} {decl : FileDecl}
    (h : loaded.add name decl = .ok next) :
    ∃ symbols file, addSymbols loaded.symbols (decl.symbols name) = .ok symbols ∧
      linkFile builtinDescriptor loaded.pool ⟨symbols, visibleFrom loaded.pool name decl⟩ name
        decl = .ok file ∧
      next = ⟨⟨loaded.pool.files ++ [file]⟩, symbols⟩ := by
  rw [Loaded.add] at h
  split at h
  · cases h
  · obtain ⟨symbols, hsymbols, h⟩ := exists_ok_of_bind h
    obtain ⟨file, hfile, h⟩ := exists_ok_of_bind h
    cases h
    exact ⟨symbols, file, hsymbols, hfile, rfl⟩

def Loaded.Has (loaded : Loaded) (name : String) : Prop :=
  ∃ file ∈ loaded.pool.files, file.name = name

theorem Loaded.has_iff {loaded : Loaded} {name : String} :
    loaded.Has name ↔ (loaded.pool.file? name).isSome := by
  simp [Has, Pool.file?]

theorem Loaded.has_add {loaded next : Loaded} {name : String} {decl : FileDecl}
    (h : loaded.add name decl = .ok next) (other : String) :
    next.Has other ↔ loaded.Has other ∨ other = name := by
  obtain ⟨symbols, file, -, hfile, rfl⟩ := Loaded.add_inv h
  obtain ⟨hname, -⟩ := imports_of_linkFile hfile
  simp [Has, or_and_right, exists_or, hname, eq_comm]

inductive Adds (source : String → FileDecl → Prop) : Loaded → Loaded → Prop
  | refl (loaded : Loaded) : Adds source loaded loaded
  | add {start loaded next : Loaded} {name : String} {decl : FileDecl}
      (before : Adds source start loaded) (declared : source name decl)
      (fresh : ¬ loaded.Has name) (imports : ∀ i ∈ decl.imports, loaded.Has i.name)
      (step : loaded.add name decl = .ok next) : Adds source start next

namespace Adds

variable {source : String → FileDecl → Prop} {start middle next : Loaded}

theorem trans (h : Adds source start middle) (h' : Adds source middle next) :
    Adds source start next := by
  induction h' with
  | refl => exact h
  | add _ declared fresh imports step ih => exact .add ih declared fresh imports step

theorem has (h : Adds source start next) {name : String} (hname : start.Has name) :
    next.Has name := by
  induction h with
  | refl => exact hname
  | add _ _ _ _ step ih => exact (Loaded.has_add step name).mpr (.inl ih)

end Adds

/-- Loading only adds files.  Afterwards the file is there, and none that still waits for it. -/
structure LoadsBy (source : String → FileDecl → Prop) (stack : List String) (name : String)
    (loaded next : Loaded) : Prop where
  adds : Adds source loaded next
  has : next.Has name
  waiting : ∀ other ∈ stack, next.Has other → loaded.Has other

theorem loadsBy_foldlM {source : String → FileDecl → Prop} {stack : List String}
    {inner : List String → String → Loaded → Except LinkFault Loaded}
    (hinner : ∀ name loaded next, inner stack name loaded = .ok next →
      LoadsBy source stack name loaded next)
    {imports : List ImportDecl} {loaded next : Loaded}
    (h : imports.foldlM (fun loaded declared => inner stack declared.name loaded) loaded =
      .ok next) :
    Adds source loaded next ∧ (∀ declared ∈ imports, next.Has declared.name) ∧
      ∀ other ∈ stack, next.Has other → loaded.Has other := by
  induction imports generalizing loaded with
  | nil =>
      cases h
      exact ⟨.refl _, by simp, fun _ _ hother => hother⟩
  | cons declared rest ih =>
      rw [List.foldlM_cons] at h
      obtain ⟨middle, hfirst, h⟩ := exists_ok_of_bind h
      have hloads := hinner declared.name loaded middle hfirst
      obtain ⟨hadds, himports, hwaiting⟩ := ih h
      refine ⟨hloads.adds.trans hadds, ?_, ?_⟩
      · intro other hother
        rcases List.mem_cons.mp hother with rfl | hother
        · exact hadds.has hloads.has
        · exact himports other hother
      · exact fun other hother hhas => hloads.waiting other hother (hwaiting other hother hhas)

theorem loadsBy_of_load {lookup : Lookup} {files : FileTree} {fuel : Nat} {stack : List String}
    {name : String} {loaded next : Loaded}
    (h : load lookup files fuel stack name loaded = .ok next) :
    LoadsBy (fun name decl => readDeclarations lookup files name = .ok decl) stack name loaded
      next := by
  induction fuel generalizing stack name loaded next with
  | zero => cases h
  | succ fuel ih =>
      rw [load, loadBy] at h
      split at h
      · cases h
      · rename_i hnew
        split at h
        · rename_i hthere
          cases h
          exact ⟨.refl _, Loaded.has_iff.mpr hthere, fun _ _ hother => hother⟩
        · rename_i hmissing
          cases hdecl : readDeclarations lookup files name with
          | error fault => simp [hdecl] at h
          | ok decl =>
              simp only [hdecl] at h
              split at h
              · cases h
              · rename_i middle hfold
                split at h
                · rename_i hadd
                  cases h
                  obtain ⟨hadds, himports, hwaiting⟩ := loadsBy_foldlM (fun _ _ _ => ih) hfold
                  have hstart : ¬ loaded.Has name := fun hhas => hmissing (Loaded.has_iff.mp hhas)
                  have hfresh : ¬ middle.Has name := fun hhas =>
                    hstart (hwaiting name (by simp) hhas)
                  refine ⟨hadds.trans (.add (.refl _) hdecl hfresh himports hadd),
                    (Loaded.has_add hadd name).mpr (.inr rfl), ?_⟩
                  intro other hother hhas
                  rcases (Loaded.has_add hadd other).mp hhas with hhas | rfl
                  · exact hwaiting other (by simp [hother]) hhas
                  · exact absurd hother hnew
                · cases h

theorem adds_of_link {files : FileTree} {includeDirectory path : String} {linked : Linked}
    (h : link files includeDirectory path = .ok linked) :
    ∃ loaded, Adds (fun name decl =>
        readDeclarations (Lookup.ofFile path includeDirectory).1 files name = .ok decl)
      .empty loaded ∧ linked.pool = loaded.pool ∧ linked.file ∈ loaded.pool.files := by
  unfold link at h
  generalize Lookup.ofFile path includeDirectory = named at h ⊢
  obtain ⟨lookup, name⟩ := named
  dsimp only at h
  split at h
  · cases h
  · rename_i loaded hload
    split at h
    · rename_i file hfile
      cases h
      exact ⟨loaded, (loadsBy_of_load hload).adds, rfl, List.mem_of_find?_eq_some hfile⟩
    · cases h

end SchemaGo.Schema
