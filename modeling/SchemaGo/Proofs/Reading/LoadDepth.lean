import Mathlib.Data.List.Perm.Subperm
import SchemaGo.Proofs.Reading.Load

/-!
# How deep loading goes

Imports that wait for each other have different names, and a file answers to
four names at most: it can be found in the own directory or below the include
directory, and the name may start with the own directory or not.  So the number
of files bounds the number of imports that wait, and loading never gives up
early: with any larger bound it does the same.
-/

namespace SchemaGo.Schema

/-! ## Names of imports -/

namespace Parser

variable {α β : Type}

def Ensures (parser : Parser α) (accepts : α → Prop) : Prop :=
  ∀ tokens result rest, parser tokens = some (result, rest) → accepts result

theorem ensures_pure {accepts : α → Prop} {value : α} (h : accepts value) :
    Ensures (pure value) accepts := by
  intro tokens result rest hrun
  cases hrun
  exact h

theorem ensures_failure {accepts : α → Prop} : Ensures failure accepts := by
  intro tokens result rest hrun
  cases hrun

theorem Ensures.bind {parser : Parser α} {next : α → Parser β} {accepts' : α → Prop}
    {accepts : β → Prop} (h : Ensures parser accepts')
    (hnext : ∀ value, accepts' value → Ensures (next value) accepts) :
    Ensures (parser >>= next) accepts := by
  intro tokens result rest hrun
  cases hfirst : parser tokens with
  | none =>
      have hnone : (parser >>= next) tokens = none := by
        simp only [Bind.bind, StateT.bind, Option.bind, hfirst]
      rw [hnone] at hrun
      cases hrun
  | some first =>
      obtain ⟨value, between⟩ := first
      have hrest : (parser >>= next) tokens = next value between := by
        simp only [Bind.bind, StateT.bind, Option.bind, hfirst]
      rw [hrest] at hrun
      exact hnext value (h tokens value between hfirst) between result rest hrun

theorem ensures_bind {parser : Parser α} {next : α → Parser β} {accepts : β → Prop}
    (h : ∀ value, Ensures (next value) accepts) : Ensures (parser >>= next) accepts := by
  have htrue : Ensures parser fun _ => True := fun _ _ _ _ => trivial
  exact htrue.bind fun value _ => h value

theorem ensures_stepsUntil {σ : Type} {stop : Parser Bool} {step : σ → Parser σ}
    {accepts : σ → Prop} (hstep : ∀ state, accepts state → Ensures (step state) accepts)
    (fuel : Nat) {state : σ} (hstate : accepts state) :
    Ensures (stepsUntil stop step fuel state) accepts := by
  induction fuel generalizing state with
  | zero => exact ensures_failure
  | succ fuel ih =>
      rw [stepsUntil]
      refine ensures_bind fun stopped => ?_
      split
      · exact ensures_pure hstate
      · exact (hstep state hstate).bind fun next hnext => ih hnext

theorem ensures_importDecl (comment : Option String) :
    Ensures (importDecl comment) fun decl => isImportName decl.name := by
  rw [importDecl]
  refine ensures_bind fun kind => ensures_bind fun name => ensures_bind fun _ => ?_
  split
  · rename_i hname
    exact ensures_pure hname
  · exact ensures_failure

end Parser

def FileDecl.ImportsNamed (file : FileDecl) : Prop :=
  ∀ declared ∈ file.imports, Parser.isImportName declared.name

namespace Parser

theorem ensures_fileItem {file : FileDecl} (h : file.ImportsNamed) :
    Ensures (fileItem file) FileDecl.ImportsNamed := by
  rw [fileItem]
  refine ensures_bind fun comment => ensures_bind fun tokens => ensures_bind fun taken => ?_
  split
  · exact ensures_pure h
  · refine ensures_bind fun keyword => ?_
    split
    · refine ensures_bind fun name => ensures_bind fun _ => ?_
      split
      · exact ensures_failure
      · exact ensures_pure h
    · refine (ensures_importDecl comment).bind fun declared hdeclared => ensures_pure ?_
      intro other hother
      rcases List.mem_append.mp hother with hother | hother
      · exact h other hother
      · rw [List.mem_singleton.mp hother]
        exact hdeclared
    · exact ensures_bind fun _ => ensures_pure h
    · exact ensures_bind fun _ => ensures_bind fun _ => ensures_bind fun _ => ensures_pure h
    · exact ensures_bind fun _ => ensures_pure h
    · exact ensures_bind fun _ => ensures_bind fun _ => ensures_bind fun _ => ensures_pure h
    · exact ensures_bind fun _ => ensures_pure h
    · exact ensures_failure

theorem ensures_dialect : Ensures dialect FileDecl.ImportsNamed := by
  have hempty : ∀ file : FileDecl, file.imports = [] → file.ImportsNamed := by
    intro file himports
    simp [FileDecl.ImportsNamed, himports]
  rw [dialect]
  refine ensures_bind fun comment => ensures_bind fun declared => ?_
  split
  · refine ensures_bind fun _ => ensures_bind fun name => ensures_bind fun _ => ?_
    dsimp only
    split
    · exact ensures_pure (hempty _ rfl)
    · exact ensures_pure (hempty _ rfl)
    · exact ensures_failure
  · exact ensures_pure (hempty _ rfl)

theorem ensures_file : Ensures file FileDecl.ImportsNamed :=
  ensures_dialect.bind fun _ hstart => ensures_bind fun _ =>
    ensures_stepsUntil (fun _ => ensures_fileItem) _ hstart

end Parser

theorem importsNamed_of_parse? {source : String} {decl : FileDecl}
    (h : FileDecl.parse? source = some decl) : decl.ImportsNamed := by
  obtain ⟨tokens, -, h⟩ := Option.bind_eq_some_iff.mp h
  obtain ⟨⟨result, rest⟩, hrun, rfl⟩ := Option.map_eq_some_iff.mp h
  exact Parser.ensures_file tokens result rest hrun

theorem importsNamed_of_bundled :
    ∀ entry ∈ Bundled.files, ∀ declared ∈ entry.2.imports, Parser.isImportName declared.name := by
  decide

theorem importsNamed_of_declarations {name source : String} {decl : FileDecl}
    (h : declarations name source = .ok decl) : decl.ImportsNamed := by
  unfold declarations at h
  cases hparse : FileDecl.parse? source with
  | none => simp [hparse] at h
  | some parsed =>
      have heq : parsed = decl := by
        cases hform : parsed.checkForm <;> simp_all
      exact heq ▸ importsNamed_of_parse? hparse

theorem importsNamed_of_readDeclarations {lookup : Lookup} {tree : FileTree} {name : String}
    {decl : FileDecl} (h : readDeclarations lookup tree name = .ok decl) :
    decl.ImportsNamed := by
  unfold readDeclarations at h
  cases hread : lookup.readSource tree name with
  | ok source =>
      rw [hread] at h
      exact importsNamed_of_declarations h
  | error fault =>
      rw [hread] at h
      dsimp only at h
      split at h
      · split at h
        · rename_i bundled hbundled
          cases h
          obtain ⟨before, after, hfiles, -⟩ := List.lookup_eq_some_iff.mp hbundled
          exact importsNamed_of_bundled (name, decl) (by simp [hfiles])
        · cases h
      · cases h

end SchemaGo.Schema

/-! ## Names of files -/

namespace SchemaGo.Lookup

open SchemaGo.PathText (IsName)
open SchemaGo.Text (splitAt splitOn joinWith)

theorem eq_append_of_dropStart? {start text rest : List Char}
    (h : dropStart? start text = some rest) : text = start ++ rest := by
  induction start generalizing text with
  | nil => exact Option.some.inj h
  | cons c start ih =>
      cases text with
      | nil => cases h
      | cons d text =>
          rw [dropStart?] at h
          split at h
          · rename_i heq
            rw [heq, ih h, List.cons_append]
          · cases h

theorem forwardSlashes_of_not_mem {path : String} (h : '\\' ∉ path.toList) :
    forwardSlashes path = path := by
  have hkeep : ∀ c ∈ path.toList, (if c = '\\' then '/' else c) = id c := by
    intro c hc
    refine if_neg ?_
    rintro rfl
    exact h hc
  rw [forwardSlashes, Text.replaceChar, List.map_congr_left hkeep, List.map_id,
    String.ofList_toList]

def EndsInSlash (lookup : Lookup) : Prop :=
  lookup.directory = "" ∨ lookup.directory.toList.getLast? = some '/'

theorem endsInSlash_ofFile (path includeDirectory : String) :
    (ofFile path includeDirectory).1.EndsInSlash := by
  simp only [ofFile, ofDirectory, EndsInSlash, withSlash]
  split
  · rename_i h
    simpa using h
  · exact .inr (by simp)

theorem isName_of_isImportName {name : String} (h : Schema.Parser.isImportName name) :
    '\\' ∉ name.toList ∧ ∀ segment ∈ splitOn '/' name, IsName segment := by
  simp only [Schema.Parser.isImportName, Bool.and_eq_true, Bool.not_eq_true', List.all_eq_true]
    at h
  refine ⟨by simpa using h.1, fun segment hsegment => ?_⟩
  have hparts := h.2 segment hsegment
  simp only [bne_iff_ne, ne_eq] at hparts
  exact ⟨by simpa [PathText.isIdle] using hparts.1, hparts.2⟩

theorem dropWhile_of_isName {text : List Char}
    (h : ∀ segment ∈ splitOn '/' (String.ofList text), IsName segment) :
    text.dropWhile (· == '/') = text := by
  have hrelative := PathText.isAbsolute_of_forall_isName h
  cases text with
  | nil => rfl
  | cons c rest =>
      have hc : c ≠ '/' := by simpa [PathText.isAbsolute] using hrelative
      simp [hc]

theorem nameOf_of_isImportName {lookup : Lookup} (hslash : lookup.EndsInSlash) {name : String}
    (h : Schema.Parser.isImportName name) :
    (∀ segment ∈ splitOn '/' (lookup.nameOf name), IsName segment) ∧
      (name = lookup.nameOf name ∨ name = lookup.directory ++ lookup.nameOf name) := by
  obtain ⟨hback, hnames⟩ := isName_of_isImportName h
  have hname : lookup.nameOf name = String.ofList
      (((dropStart? lookup.directory.toList name.toList).getD name.toList).dropWhile
        (· == '/')) := by
    rw [nameOf, forwardSlashes_of_not_mem hback]
  have hkept : lookup.nameOf name = name → (∀ segment ∈ splitOn '/' (lookup.nameOf name),
      IsName segment) ∧
      (name = lookup.nameOf name ∨ name = lookup.directory ++ lookup.nameOf name) := by
    intro heq
    rw [heq]
    exact ⟨hnames, .inl rfl⟩
  cases hdrop : dropStart? lookup.directory.toList name.toList with
  | none =>
      apply hkept
      rw [hname, hdrop, Option.getD_none, dropWhile_of_isName (by simpa using hnames),
        String.ofList_toList]
  | some rest =>
      have happend := eq_append_of_dropStart? hdrop
      rw [hdrop, Option.getD_some] at hname
      rcases hslash with hempty | hlast
      · apply hkept
        have hrest : rest = name.toList := by simpa [hempty] using happend.symm
        rw [hname, hrest, dropWhile_of_isName (by simpa using hnames), String.ofList_toList]
      · obtain ⟨start, hstart⟩ := List.getLast?_eq_some_iff.mp hlast
        have hsplit : splitOn '/' name =
            (splitAt '/' start).map String.ofList ++ splitOn '/' (String.ofList rest) := by
          simp [splitOn, happend, hstart, Text.splitAt_append_cons]
        have hrest : ∀ segment ∈ splitOn '/' (String.ofList rest), IsName segment := by
          intro segment hsegment
          exact hnames segment (hsplit ▸ List.mem_append_right _ hsegment)
        rw [dropWhile_of_isName hrest] at hname
        rw [hname]
        refine ⟨hrest, .inr (String.toList_inj.mp ?_)⟩
        simpa using happend

/-! ## Names that are found -/

def namesBelow (lookup : Lookup) (tree : FileTree) (directory : String) (place : Place) :
    List String :=
  let name := joinWith "/" (place.drop (tree.placeOf directory).length)
  [name, lookup.directory ++ name]

def names (lookup : Lookup) (tree : FileTree) : List String :=
  tree.entries.flatMap (fun entry => lookup.namesBelow tree lookup.directory entry.1 ++
    lookup.namesBelow tree lookup.includeDirectory entry.1) ++ Schema.Bundled.files.map (·.1)

theorem length_names (lookup : Lookup) (tree : FileTree) :
    (lookup.names tree).length = 4 * tree.entries.length + Schema.Bundled.files.length := by
  simp [names, namesBelow, List.length_flatMap, Nat.mul_comm]

theorem mem_namesBelow {lookup : Lookup} (hslash : lookup.EndsInSlash) {tree : FileTree}
    {directory name : String} {contents : Bytes} (h : Schema.Parser.isImportName name)
    (hread : tree.read (PathText.join directory (lookup.nameOf name)) = .ok contents) :
    ∃ entry ∈ tree.entries, name ∈ lookup.namesBelow tree directory entry.1 := by
  obtain ⟨hsegments, hname⟩ := nameOf_of_isImportName hslash h
  obtain ⟨-, -, hentry⟩ := FileTree.read_eq_ok_iff.mp hread
  rw [tree.placeOf_join_names hsegments, FileTree.entry?] at hentry
  split at hentry
  · cases hentry
  · obtain ⟨before, after, hentries, -⟩ := List.lookup_eq_some_iff.mp hentry
    refine ⟨(tree.placeOf directory ++ splitOn '/' (lookup.nameOf name), .file contents),
      by simp [hentries], ?_⟩
    simpa [namesBelow, Text.joinWith_splitOn] using hname

theorem exists_read_of_readSource {lookup : Lookup} {tree : FileTree} {name source : String}
    (h : lookup.readSource tree name = .ok source) :
    ∃ contents, tree.read (lookup.ownPath name) = .ok contents ∨
      tree.read (lookup.includePath name) = .ok contents := by
  unfold readSource at h
  cases hread : lookup.read tree name with
  | error fault => simp [hread] at h
  | ok contents =>
      have hresult := lookup.result_trace name tree
      simp only [hread, trace, Traced.result_bind, Traced.attempt, Traced.read,
        Option.bind_some] at hresult
      cases hown : tree.read (lookup.ownPath name) with
      | ok bytes => exact ⟨bytes, .inl rfl⟩
      | error fault =>
          cases hinclude : tree.read (lookup.includePath name) with
          | ok bytes => exact ⟨bytes, .inr rfl⟩
          | error fault => simp [hown, hinclude, Except.toOption] at hresult

theorem mem_names {lookup : Lookup} (hslash : lookup.EndsInSlash) {tree : FileTree}
    {name : String} {decl : Schema.FileDecl} (h : Schema.Parser.isImportName name)
    (hread : Schema.readDeclarations lookup tree name = .ok decl) : name ∈ lookup.names tree := by
  unfold Schema.readDeclarations at hread
  rw [names, List.mem_append, List.mem_flatMap]
  cases hsource : lookup.readSource tree name with
  | ok source =>
      obtain ⟨contents, hown | hinclude⟩ := exists_read_of_readSource hsource
      · obtain ⟨entry, hentry, hname⟩ := mem_namesBelow hslash h hown
        exact .inl ⟨entry, hentry, List.mem_append_left _ hname⟩
      · obtain ⟨entry, hentry, hname⟩ := mem_namesBelow hslash h hinclude
        exact .inl ⟨entry, hentry, List.mem_append_right _ hname⟩
  | error fault =>
      rw [hsource] at hread
      dsimp only at hread
      split at hread
      · split at hread
        · rename_i bundled hbundled
          obtain ⟨before, after, hfiles, -⟩ := List.lookup_eq_some_iff.mp hbundled
          exact .inr (List.mem_map.mpr ⟨(name, bundled), by simp [hfiles], rfl⟩)
        · cases hread
      · cases hread

end SchemaGo.Lookup

namespace SchemaGo.Schema

/-! ## Waiting imports -/

/-- The files that wait for each other, the nearest first.  All but the first one to be loaded were
imported, and found. -/
structure Waiting (lookup : Lookup) (tree : FileTree) (stack : List String) : Prop where
  nodup : stack.Nodup
  found : ∀ name ∈ stack.dropLast, name ∈ lookup.names tree

theorem Waiting.length_lt {lookup : Lookup} {tree : FileTree} {stack : List String}
    (h : Waiting lookup tree stack) : stack.length < loadDepth tree := by
  have hnodup : stack.dropLast.Nodup := h.nodup.sublist (List.dropLast_sublist stack)
  have hlength := (List.subperm_of_subset hnodup h.found).length_le
  rw [lookup.length_names, List.length_dropLast] at hlength
  rw [loadDepth]
  omega

theorem Waiting.push {lookup : Lookup} (hslash : lookup.EndsInSlash) {tree : FileTree}
    {stack : List String} (h : Waiting lookup tree stack) {name : String} {decl : FileDecl}
    (hname : stack = [] ∨ Parser.isImportName name) (hnew : name ∉ stack)
    (hread : readDeclarations lookup tree name = .ok decl) :
    Waiting lookup tree (name :: stack) := by
  refine ⟨List.nodup_cons.mpr ⟨hnew, h.nodup⟩, fun other hother => ?_⟩
  cases stack with
  | nil => simp at hother
  | cons first rest =>
      rw [List.dropLast_cons_of_ne_nil (by simp), List.mem_cons] at hother
      rcases hother with rfl | hother
      · exact Lookup.mem_names hslash (hname.resolve_left (by simp)) hread
      · exact h.found other hother

/-- A bound that is large enough makes no difference. -/
theorem traceLoad_eq_of_waiting {lookup : Lookup} (hslash : lookup.EndsInSlash) {tree : FileTree}
    {stack : List String} (h : Waiting lookup tree stack) {name : String}
    (hname : stack = [] ∨ Parser.isImportName name) {fuel fuel' : Nat}
    (hfuel : loadDepth tree ≤ fuel + stack.length) (hfuel' : loadDepth tree ≤ fuel' + stack.length)
    (loaded : Loaded) :
    traceLoad lookup tree fuel stack name loaded =
      traceLoad lookup tree fuel' stack name loaded := by
  induction fuel generalizing stack name fuel' loaded with
  | zero =>
      have hlength := h.length_lt
      omega
  | succ fuel ih =>
      cases fuel' with
      | zero =>
          have hlength := h.length_lt
          omega
      | succ fuel' =>
          rw [traceLoad, traceLoad, traceLoadBy, traceLoadBy]
          split
          · rfl
          · rename_i hnew
            split
            · rfl
            · refine Traced.bind_congr_of_result fun decl hdecl => ?_
              have hread : readDeclarations lookup tree name = .ok decl := by
                rw [result_traceDeclarations] at hdecl
                cases hread : readDeclarations lookup tree name <;>
                  simp_all [Except.toOption]
              have hnamed := importsNamed_of_readDeclarations hread
              have hstack := h.push hslash hname hnew hread
              have hinner : ∀ declared ∈ decl.imports, ∀ loaded,
                  traceLoad lookup tree fuel (name :: stack) declared.name loaded =
                    traceLoad lookup tree fuel' (name :: stack) declared.name loaded := by
                intro declared hdeclared loaded
                refine ih hstack (.inr (hnamed declared hdeclared)) ?_ ?_ loaded
                · rw [List.length_cons]
                  omega
                · rw [List.length_cons]
                  omega
              rw [Traced.foldlM_congr hinner]

/-! ## Linking -/

def Loaded.link (loaded : Loaded) (name directory : String) : Option Linked :=
  (loaded.pool.file? name).map fun file => ⟨loaded.pool, file, directory⟩

def traceLinkFrom (lookup : Lookup) (name : String) (depth : Nat) (tree : FileTree) :
    Traced Linked := do
  let loaded ← traceLoad lookup tree depth [] (lookup.nameOf name) .empty
  Traced.ofOption (loaded.link name lookup.directory)

def traceLink (includeDirectory path : String) (tree : FileTree) : Traced Linked :=
  traceLinkFrom (Lookup.ofFile path includeDirectory).1 (Lookup.ofFile path includeDirectory).2
    (loadDepth tree) tree

theorem result_traceLink (includeDirectory path : String) (tree : FileTree) :
    (traceLink includeDirectory path tree).result =
      (link tree includeDirectory path).toOption := by
  unfold link
  rw [traceLink, traceLinkFrom]
  generalize loadDepth tree = depth
  generalize Lookup.ofFile path includeDirectory = named
  obtain ⟨lookup, name⟩ := named
  simp only [Traced.result_bind, result_traceLoad, Traced.result_ofOption]
  generalize load lookup tree depth [] (lookup.nameOf name) .empty = loaded
  cases loaded with
  | error fault => rfl
  | ok loaded =>
      simp only [Except.toOption, Option.bind_some, Loaded.link]
      cases loaded.pool.file? name <;> rfl

theorem determined_traceLinkFrom (lookup : Lookup) (name : String) (depth : Nat) :
    Traced.Determined (traceLinkFrom lookup name depth) :=
  (determined_traceLoad lookup depth [] (lookup.nameOf name) .empty).bind fun _ =>
    Traced.determined_const _

theorem traceLinkFrom_eq {lookup : Lookup} (hslash : lookup.EndsInSlash) (name : String)
    {tree : FileTree} {depth : Nat} (hdepth : loadDepth tree ≤ depth) :
    traceLinkFrom lookup name (loadDepth tree) tree = traceLinkFrom lookup name depth tree := by
  have hwaiting : Waiting lookup tree [] := ⟨List.nodup_nil, by simp⟩
  have hload : traceLoad lookup tree (loadDepth tree) [] (lookup.nameOf name) .empty =
      traceLoad lookup tree depth [] (lookup.nameOf name) .empty :=
    traceLoad_eq_of_waiting hslash hwaiting (.inl rfl) (by simp) (by simpa using hdepth) _
  rw [traceLinkFrom, hload, traceLinkFrom]

/-- The bound depends on the tree, but a larger one serves both trees. -/
theorem determined_traceLink (includeDirectory path : String) :
    Traced.Determined (traceLink includeDirectory path) := by
  intro tree tree' hsame
  have hslash := Lookup.endsInSlash_ofFile path includeDirectory
  have hleft := Nat.le_max_left (loadDepth tree) (loadDepth tree')
  have hright := Nat.le_max_right (loadDepth tree) (loadDepth tree')
  rw [traceLink, traceLinkFrom_eq hslash _ hleft] at hsame
  rw [traceLink, traceLink, traceLinkFrom_eq hslash _ hleft, traceLinkFrom_eq hslash _ hright]
  exact determined_traceLinkFrom _ _ _ tree tree' hsame

end SchemaGo.Schema
