import SchemaGo.Proofs.Schema.OwnName

/-!
# Sources that cannot be read

An import is looked for under its name in two places, the own directory and, if there
is nothing to be read, the include directory.  A source that is found in neither is
reported with these two paths.  One that is found but is no text is reported as it was
written in the import, so the paths are wrong as soon as that is not its name.
-/

namespace SchemaGo

theorem PathText.join_right_inj {left right right' : String} (hright : isAbsolute right = false)
    (hright' : isAbsolute right' = false) :
    join left right = join left right' ↔ right = right' := by
  simp only [join, hright, hright', Bool.false_or]
  split
  · rfl
  · split <;> simp

theorem Schema.readDeclarations_eq_unreadable_iff (lookup : Lookup) (files : FileTree)
    (name : String) (fault : LookupFault) :
    readDeclarations lookup files name = .error (.unreadable fault) ↔
      lookup.readSource files name = .error fault ∧ Bundled.hasBundledName name = false := by
  rw [readDeclarations]
  cases lookup.readSource files name with
  | ok source =>
      have hform : declarations name source ≠ .error (.unreadable fault) := by
        rw [declarations]
        split
        · simp
        · split <;> simp
      simp [hform]
  | error other =>
      cases Bundled.hasBundledName name with
      | true => cases Bundled.files.lookup name <;> simp
      | false => simp

namespace Lookup

/-! ## What is tried -/

def found (lookup : Lookup) (files : FileTree) (importName : String) : Except FileFault Bytes :=
  match files.read (lookup.ownPath importName) with
  | .ok contents => .ok contents
  | .error _ => files.read (lookup.includePath importName)

def tried (lookup : Lookup) (files : FileTree) (importName : String) : List String :=
  match files.read (lookup.ownPath importName) with
  | .ok _ => [lookup.ownPath importName]
  | .error _ => [lookup.ownPath importName, lookup.includePath importName]

theorem reads_trace (lookup : Lookup) (files : FileTree) (importName : String) :
    (lookup.trace importName files).reads = lookup.tried files importName := by
  simp only [trace, Bind.bind, Traced.bind, Traced.attempt, Traced.read, tried]
  cases files.read (lookup.ownPath importName) <;> rfl

theorem reads_traceSource (lookup : Lookup) (files : FileTree) (importName : String) :
    (Schema.traceSource lookup importName files).reads = lookup.tried files importName := by
  rw [← reads_trace]
  simp only [Schema.traceSource, Bind.bind, Traced.bind]
  split
  · rfl
  · exact List.append_nil _

theorem read_eq_found (lookup : Lookup) (files : FileTree) (importName : String) :
    lookup.read files importName = (lookup.found files importName).mapError fun cause =>
      ⟨importName, lookup.ownPath importName, lookup.includePath importName, .file cause⟩ := by
  have hsteps : lookup.read files importName =
      match files.read (lookup.ownPath importName) with
      | .ok contents => .ok contents
      | .error _ =>
        match files.read (lookup.includePath importName) with
        | .ok contents => .ok contents
        | .error cause => .error
            ⟨importName, lookup.ownPath importName, lookup.includePath importName, .file cause⟩ :=
    rfl
  rw [hsteps, found]
  cases files.read (lookup.ownPath importName) with
  | ok contents => rfl
  | error _ => cases files.read (lookup.includePath importName) <;> rfl

/-! ## Faults -/

theorem readSource_eq_ok_iff (lookup : Lookup) (files : FileTree) (importName text : String) :
    lookup.readSource files importName = .ok text ↔
      ∃ contents, lookup.found files importName = .ok contents ∧
        Text.Utf8.decode contents = .ok text := by
  rw [readSource, read_eq_found]
  cases lookup.found files importName with
  | error cause => simp [Except.mapError]
  | ok contents => cases hdecode : Text.Utf8.decode contents <;> simp [Except.mapError, hdecode]

theorem readSource_eq_error_iff (lookup : Lookup) (files : FileTree) (importName : String)
    (fault : LookupFault) :
    lookup.readSource files importName = .error fault ↔
      (∃ cause, lookup.found files importName = .error cause ∧
        fault = ⟨importName, lookup.ownPath importName, lookup.includePath importName,
          .file cause⟩) ∨
      ∃ contents cause, lookup.found files importName = .ok contents ∧
        Text.Utf8.decode contents = .error cause ∧
        fault = ⟨importName, PathText.join lookup.directory importName,
          PathText.join lookup.includeDirectory importName, .encoding cause⟩ := by
  rw [readSource, read_eq_found]
  cases lookup.found files importName with
  | error cause => simp [Except.mapError, eq_comm (a := fault)]
  | ok contents =>
      cases hdecode : Text.Utf8.decode contents <;>
        simp [Except.mapError, hdecode, eq_comm (a := fault)]

def IsOwnName (lookup : Lookup) (importName : String) : Prop :=
  '\\' ∉ importName.toList ∧ importName.toList.head? ≠ some '/' ∧ ¬ lookup.Repeats importName

theorem nameOf_eq_self_iff_isOwnName (lookup : Lookup) (importName : String) :
    lookup.nameOf importName = importName ↔ lookup.IsOwnName importName := by
  constructor
  · intro hsame
    obtain ⟨hback, hslash⟩ := lookup.nameOf_form importName
    rw [hsame] at hback hslash
    exact ⟨hback, hslash, (lookup.nameOf_eq_self_iff hback hslash).mp hsame⟩
  · rintro ⟨hback, hslash, hrepeats⟩
    exact (lookup.nameOf_eq_self_iff hback hslash).mpr hrepeats

theorem join_eq_tried_iff (lookup : Lookup) (importName : String) :
    PathText.join lookup.directory importName = lookup.ownPath importName ∧
        PathText.join lookup.includeDirectory importName = lookup.includePath importName ↔
      lookup.IsOwnName importName ∨ PathText.isAbsolute importName ∧
        lookup.ownPath importName = importName ∧ lookup.includePath importName = importName := by
  have hname : PathText.isAbsolute (lookup.nameOf importName) = false := by
    simpa [PathText.isAbsolute] using (lookup.nameOf_form importName).2
  rw [← nameOf_eq_self_iff_isOwnName]
  cases habsolute : PathText.isAbsolute importName with
  | true =>
      have hother : lookup.nameOf importName ≠ importName := by
        intro hsame
        rw [hsame, habsolute] at hname
        cases hname
      rw [PathText.join_of_isAbsolute habsolute, PathText.join_of_isAbsolute habsolute]
      simp [hother, eq_comm (a := importName)]
  | false =>
      rw [ownPath, includePath, PathText.join_right_inj habsolute hname,
        PathText.join_right_inj habsolute hname]
      simp [eq_comm (a := importName)]

theorem readSource_congr {lookup : Lookup} {files files' : FileTree} {importName : String}
    (h : ∀ path ∈ lookup.tried files importName, files'.read path = files.read path) :
    lookup.readSource files' importName = lookup.readSource files importName := by
  have hfound : lookup.found files' importName = lookup.found files importName := by
    rw [tried] at h
    rw [found, found]
    split at h
    · rename_i hown
      rw [h _ List.mem_cons_self, hown]
    · rename_i hown
      rw [h _ List.mem_cons_self, hown, h _ (List.mem_cons_of_mem _ List.mem_cons_self)]
  rw [readSource, readSource, read_eq_found, read_eq_found, hfound]

/-- An import is tried in the own directory and, only if it cannot be read there, in the include
directory, and nothing else matters.  It is a source if what is found is text.  If nothing is found,
the fault names the paths that were tried; if no text is found, it names them exactly if the import
is its own name, or an absolute path that both of them are.  Such faults end the loading of every
file that is not bundled. -/
theorem readSource_names_tried_iff (lookup : Lookup) (files : FileTree) (importName : String) :
    (Schema.traceSource lookup importName files).reads = lookup.tried files importName ∧
    (∀ files', (∀ path ∈ lookup.tried files importName, files'.read path = files.read path) →
      lookup.readSource files' importName = lookup.readSource files importName) ∧
    (∀ text, lookup.readSource files importName = .ok text ↔
      ∃ contents, lookup.found files importName = .ok contents ∧
        Text.Utf8.decode contents = .ok text) ∧
    (∀ fault, lookup.readSource files importName = .error fault → fault.importName = importName ∧
      ((∃ cause, fault.cause = .file cause ∧ lookup.found files importName = .error cause ∧
          fault.localPath = lookup.ownPath importName ∧
          fault.fallback = lookup.includePath importName) ∨
        ∃ contents cause, fault.cause = .encoding cause ∧
          lookup.found files importName = .ok contents ∧
          Text.Utf8.decode contents = .error cause ∧
          (fault.localPath = lookup.ownPath importName ∧
              fault.fallback = lookup.includePath importName ↔
            lookup.IsOwnName importName ∨ PathText.isAbsolute importName ∧
              lookup.ownPath importName = importName ∧
              lookup.includePath importName = importName))) ∧
    ∀ fault, Schema.readDeclarations lookup files importName = .error (.unreadable fault) ↔
      lookup.readSource files importName = .error fault ∧
        Schema.Bundled.hasBundledName importName = false := by
  refine ⟨reads_traceSource lookup files importName, fun files' => readSource_congr,
    readSource_eq_ok_iff lookup files importName, ?_, ?_⟩
  · intro fault hfault
    rcases (readSource_eq_error_iff lookup files importName fault).mp hfault with
      ⟨cause, hfound, rfl⟩ | ⟨contents, cause, hfound, hdecode, rfl⟩
    · exact ⟨rfl, .inl ⟨cause, rfl, hfound, rfl, rfl⟩⟩
    · exact ⟨rfl, .inr ⟨contents, cause, rfl, hfound, hdecode, lookup.join_eq_tried_iff importName⟩⟩
  · intro fault
    exact Schema.readDeclarations_eq_unreadable_iff lookup files importName fault

def brokenSource : FileTree := ⟨["w"], [(["w", "p"], .directory), (["w", "p", "b"], .file [255])]⟩

def brokenLookup : Lookup := ⟨"p/", "i"⟩

/-- The file is found at the same path for both imports, but reported at two different ones. -/
theorem readSource_names_tried_iff_broken :
    (∃ fault, brokenLookup.readSource brokenSource "b" = .error fault ∧
      fault.localPath = brokenLookup.ownPath "b" ∧
      fault.fallback = brokenLookup.includePath "b") ∧
    ∃ fault, brokenLookup.readSource brokenSource "p/b" = .error fault ∧
      brokenLookup.tried brokenSource "p/b" = ["p/b"] ∧
      fault.localPath = "p/p/b" ∧ fault.fallback = "i/p/b" ∧
      ¬ (fault.localPath = brokenLookup.ownPath "p/b" ∧
        fault.fallback = brokenLookup.includePath "p/b") := by
  have hplain : brokenLookup.readSource brokenSource "b" =
      .error ⟨"b", "p/b", "i/b", .encoding ⟨0, some 1⟩⟩ := by decide +kernel
  have hrepeated : brokenLookup.readSource brokenSource "p/b" =
      .error ⟨"p/b", "p/p/b", "i/p/b", .encoding ⟨0, some 1⟩⟩ := by decide +kernel
  have hown : brokenLookup.IsOwnName "b" := ⟨by decide, by decide, fun h => absurd h.2 (by decide)⟩
  have hother : ¬ brokenLookup.IsOwnName "p/b" := fun h => h.2.2 ⟨by decide, by decide⟩
  have hrelative : ¬ PathText.isAbsolute "p/b" := by decide
  refine ⟨⟨_, hplain, ?_⟩, _, hrepeated, by decide +kernel, rfl, rfl, ?_⟩
  · obtain ⟨-, ⟨_, hcause, -⟩ | ⟨_, _, -, -, -, hpaths⟩⟩ :=
      (readSource_names_tried_iff brokenLookup brokenSource "b").2.2.2.1 _ hplain
    · cases hcause
    · exact hpaths.mpr (.inl hown)
  · obtain ⟨-, ⟨_, hcause, -⟩ | ⟨_, _, -, -, -, hpaths⟩⟩ :=
      (readSource_names_tried_iff brokenLookup brokenSource "p/b").2.2.2.1 _ hrepeated
    · cases hcause
    · exact fun h => (hpaths.mp h).elim hother fun h => hrelative h.1

end Lookup

end SchemaGo
