import SchemaGo.Proofs.Path.FileTree

/-!
# Computations and what they read

A computation on a file tree is followed by the paths that it tries to read.  It
is determined by them: it goes the same way in any other tree in which each of
these paths gives the same contents, or none.  Why a path cannot be read makes
no difference.
-/

namespace SchemaGo

variable {α β : Type}

/-- The paths that a computation tries to read, in order, and its result if there is one. -/
structure Traced (α : Type) where
  reads : List String
  result : Option α

def FileTree.SameRead (tree tree' : FileTree) (path : String) : Prop :=
  (tree'.read path).toOption = (tree.read path).toOption

theorem FileTree.SameRead.read {tree tree' : FileTree} {path : String} {contents : Bytes}
    (h : tree.SameRead tree' path) (hread : tree.read path = .ok contents) :
    tree'.read path = .ok contents := by
  rw [SameRead, hread] at h
  cases hread' : tree'.read path <;> simp_all [Except.toOption]

namespace Traced

def ofOption (result : Option α) : Traced α := ⟨[], result⟩

def bind (first : Traced α) (next : α → Traced β) : Traced β :=
  match first.result with
  | none => ⟨first.reads, none⟩
  | some value => ⟨first.reads ++ (next value).reads, (next value).result⟩

instance : Monad Traced where
  pure value := ofOption (some value)
  bind := bind

def attempt (first : Traced α) : Traced (Option α) := ⟨first.reads, some first.result⟩

def read (tree : FileTree) (path : String) : Traced Bytes := ⟨[path], (tree.read path).toOption⟩

theorem result_bind (first : Traced α) (next : α → Traced β) :
    (first >>= next).result = first.result.bind fun value => (next value).result := by
  simp only [Bind.bind, bind]
  cases first.result <;> rfl

@[simp] theorem result_pure (value : α) : (pure value : Traced α).result = some value := rfl

@[simp] theorem result_ofOption (result : Option α) : (ofOption result).result = result := rfl

theorem mem_reads_bind {first : Traced α} {path : String} (next : α → Traced β)
    (h : path ∈ first.reads) : path ∈ (first >>= next).reads := by
  simp only [Bind.bind, bind]
  split
  · exact h
  · exact List.mem_append_left _ h

theorem mem_reads_next {first : Traced α} {value : α} {next : α → Traced β} {path : String}
    (hvalue : first.result = some value) (h : path ∈ (next value).reads) :
    path ∈ (first >>= next).reads := by
  simp only [Bind.bind, bind, hvalue]
  exact List.mem_append_right _ h

theorem bind_congr_of_result {first : Traced α} {next next' : α → Traced β}
    (h : ∀ value, first.result = some value → next value = next' value) :
    first >>= next = first >>= next' := by
  simp only [Bind.bind, bind]
  split
  · rfl
  · rename_i value hvalue
    rw [h value hvalue]

theorem foldlM_congr {step step' : β → α → Traced β} {items : List α}
    (h : ∀ item ∈ items, ∀ state, step state item = step' state item) (state : β) :
    items.foldlM step state = items.foldlM step' state := by
  induction items generalizing state with
  | nil => rfl
  | cons item rest ih =>
      rw [List.forall_mem_cons] at h
      rw [List.foldlM_cons, List.foldlM_cons, h.1]
      exact bind_congr_of_result fun next _ => ih h.2 next

/-! ## Determined computations -/

/-- What the computation tries to read decides which way it goes. -/
def Determined (computation : FileTree → Traced α) : Prop :=
  ∀ tree tree' : FileTree, (∀ path ∈ (computation tree).reads, tree.SameRead tree' path) →
    computation tree' = computation tree

theorem determined_const (traced : Traced α) : Determined fun _ => traced :=
  fun _ _ _ => rfl

theorem determined_read (path : String) : Determined fun tree => read tree path := by
  intro tree tree' hsame
  have hpath := hsame path (by simp [read])
  simp only [read]
  rw [hpath]

theorem Determined.bind {computation : FileTree → Traced α} {next : α → FileTree → Traced β}
    (h : Determined computation) (hnext : ∀ value, Determined (next value)) :
    Determined fun tree => computation tree >>= fun value => next value tree := by
  intro tree tree' hsame
  simp only [Bind.bind, Traced.bind] at hsame ⊢
  have hfirst : computation tree' = computation tree := by
    refine h tree tree' fun path hpath => hsame path ?_
    split
    · exact hpath
    · exact List.mem_append_left _ hpath
  rw [hfirst]
  split
  · rfl
  · rename_i value hvalue
    rw [hvalue] at hsame
    rw [hnext value tree tree' fun path hpath => hsame path (List.mem_append_right _ hpath)]

theorem Determined.attempt {computation : FileTree → Traced α} (h : Determined computation) :
    Determined fun tree => (computation tree).attempt :=
  fun tree tree' hsame => congrArg Traced.attempt (h tree tree' hsame)

theorem determined_foldlM {step : FileTree → β → α → Traced β}
    (h : ∀ state item, Determined fun tree => step tree state item) (items : List α) (state : β) :
    Determined fun tree => items.foldlM (step tree) state := by
  induction items generalizing state with
  | nil =>
      simp only [List.foldlM_nil]
      exact determined_const _
  | cons item rest ih =>
      simp only [List.foldlM_cons]
      exact (h state item).bind ih

end Traced

end SchemaGo
