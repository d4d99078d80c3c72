import SchemaGo.Proofs.Reading.Traced
import SchemaGo.Schema.Load

/-!
# What loading schemas reads

Loading a schema tries to read it in the directory of the file to compile, then
below the include directory, and goes on with its imports.
-/

namespace SchemaGo

namespace Lookup

def ownPath (lookup : Lookup) (name : String) : String :=
  PathText.join lookup.directory (lookup.nameOf name)

def includePath (lookup : Lookup) (name : String) : String :=
  PathText.join lookup.includeDirectory (lookup.nameOf name)

def trace (lookup : Lookup) (name : String) (tree : FileTree) : Traced Bytes := do
  match ← (Traced.read tree (lookup.ownPath name)).attempt with
  | some bytes => pure bytes
  | none => Traced.read tree (lookup.includePath name)

theorem result_trace (lookup : Lookup) (name : String) (tree : FileTree) :
    (lookup.trace name tree).result = (lookup.read tree name).toOption := by
  unfold Lookup.read
  simp only [trace, Traced.result_bind, Traced.attempt, Traced.read, Option.bind_some, ownPath,
    includePath]
  generalize PathText.join lookup.directory (lookup.nameOf name) = own
  generalize PathText.join lookup.includeDirectory (lookup.nameOf name) = fallback
  cases tree.read own with
  | ok bytes => simp [Except.toOption]
  | error fault => cases tree.read fallback <;> simp [Except.toOption]

theorem determined_trace (lookup : Lookup) (name : String) :
    Traced.Determined (lookup.trace name) := by
  refine (Traced.determined_read _).attempt.bind fun own => ?_
  cases own with
  | some bytes => exact Traced.determined_const _
  | none => exact Traced.determined_read _

end Lookup

namespace Schema

def traceSource (lookup : Lookup) (name : String) (tree : FileTree) : Traced String := do
  let bytes ← lookup.trace name tree
  Traced.ofOption (Text.Utf8.decode bytes).toOption

def traceDeclarations (lookup : Lookup) (name : String) (tree : FileTree) : Traced FileDecl := do
  match ← (traceSource lookup name tree).attempt with
  | some source => Traced.ofOption (declarations name source).toOption
  | none =>
    Traced.ofOption (if Bundled.hasBundledName name then Bundled.files.lookup name else none)

def traceLoadBy (lookup : Lookup) (tree : FileTree)
    (inner : List String → String → Loaded → Traced Loaded) (stack : List String)
    (name : String) (loaded : Loaded) : Traced Loaded :=
  if name ∈ stack then Traced.ofOption none
  else if (loaded.pool.file? name).isSome then pure loaded
  else do
    let decl ← traceDeclarations lookup name tree
    let loaded ← decl.imports.foldlM (fun loaded declared =>
      inner (name :: stack) declared.name loaded) loaded
    Traced.ofOption (loaded.add name decl).toOption

def traceLoad (lookup : Lookup) (tree : FileTree) :
    Nat → List String → String → Loaded → Traced Loaded
  | 0, _, _, _ => Traced.ofOption none
  | fuel + 1, stack, name, loaded =>
    traceLoadBy lookup tree (traceLoad lookup tree fuel) stack name loaded

/-! ## Results -/

theorem result_traceSource (lookup : Lookup) (name : String) (tree : FileTree) :
    (traceSource lookup name tree).result = (lookup.readSource tree name).toOption := by
  unfold Lookup.readSource
  rw [traceSource, Traced.result_bind, lookup.result_trace]
  cases lookup.read tree name with
  | error fault => simp [Except.toOption]
  | ok bytes =>
      simp only [Except.toOption, Option.bind_some, Traced.result_ofOption]
      cases Text.Utf8.decode bytes <;> rfl

theorem result_traceDeclarations (lookup : Lookup) (name : String) (tree : FileTree) :
    (traceDeclarations lookup name tree).result =
      (readDeclarations lookup tree name).toOption := by
  unfold readDeclarations
  rw [traceDeclarations, Traced.result_bind, Traced.attempt, result_traceSource]
  cases lookup.readSource tree name with
  | ok source => simp [Except.toOption]
  | error fault =>
      simp only [Except.toOption, Option.bind_some, Traced.result_ofOption]
      split
      · cases Bundled.files.lookup name <;> simp
      · simp

theorem result_foldlM {α β : Type} {step : β → α → Traced β}
    {step' : β → α → Except LinkFault β}
    (h : ∀ state item, (step state item).result = (step' state item).toOption)
    (items : List α) (state : β) :
    (items.foldlM step state).result = (items.foldlM step' state).toOption := by
  induction items generalizing state with
  | nil => rfl
  | cons item rest ih =>
      rw [List.foldlM_cons, List.foldlM_cons, Traced.result_bind, h]
      cases hstep : step' state item with
      | error fault => rfl
      | ok next => exact ih next

theorem result_traceLoad (lookup : Lookup) (tree : FileTree) (fuel : Nat) (stack : List String)
    (name : String) (loaded : Loaded) :
    (traceLoad lookup tree fuel stack name loaded).result =
      (load lookup tree fuel stack name loaded).toOption := by
  induction fuel generalizing stack name loaded with
  | zero => rfl
  | succ fuel ih =>
      rw [traceLoad, load, traceLoadBy]
      unfold loadBy
      split
      · rfl
      · split
        · rfl
        · have hfold := fun decl : FileDecl =>
            result_foldlM (fun loaded (declared : ImportDecl) =>
              ih (name :: stack) declared.name loaded) decl.imports loaded
          rw [Traced.result_bind, result_traceDeclarations]
          cases readDeclarations lookup tree name with
          | error fault => rfl
          | ok decl =>
              simp only [Except.toOption, Option.bind_some, Traced.result_bind, hfold,
                Traced.result_ofOption]
              generalize decl.imports.foldlM (fun loaded (declared : ImportDecl) =>
                load lookup tree fuel (name :: stack) declared.name loaded) loaded = between
              cases between with
              | error fault => rfl
              | ok between =>
                  simp only [Option.bind_some]
                  cases between.add name decl <;> rfl

/-! ## Dependence on the files -/

theorem determined_traceSource (lookup : Lookup) (name : String) :
    Traced.Determined (traceSource lookup name) :=
  (lookup.determined_trace name).bind fun _ => Traced.determined_const _

theorem determined_traceDeclarations (lookup : Lookup) (name : String) :
    Traced.Determined (traceDeclarations lookup name) := by
  refine (determined_traceSource lookup name).attempt.bind fun source => ?_
  cases source with
  | some source => exact Traced.determined_const _
  | none => exact Traced.determined_const _

theorem determined_traceLoad (lookup : Lookup) (fuel : Nat) (stack : List String)
    (name : String) (loaded : Loaded) :
    Traced.Determined fun tree => traceLoad lookup tree fuel stack name loaded := by
  induction fuel generalizing stack name loaded with
  | zero => exact Traced.determined_const _
  | succ fuel ih =>
      simp only [traceLoad, traceLoadBy]
      by_cases hstack : name ∈ stack
      · simp only [hstack, if_true]
        exact Traced.determined_const _
      · by_cases hloaded : (loaded.pool.file? name).isSome
        · simp only [hstack, hloaded, if_true, if_false]
          exact Traced.determined_const _
        · simp only [hstack, hloaded, if_false]
          refine (determined_traceDeclarations lookup name).bind fun decl => ?_
          refine Traced.Determined.bind ?_ fun loaded => Traced.determined_const _
          exact Traced.determined_foldlM (fun loaded (declared : ImportDecl) =>
            ih (name :: stack) declared.name loaded) decl.imports loaded

end Schema

end SchemaGo
