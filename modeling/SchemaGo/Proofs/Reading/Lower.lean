import SchemaGo.Proofs.Lower.Steps

/-!
# What lowering reads

Lowering reads what its steps read, up to the first one that fails.  Nothing else in
the file tree makes a difference to it.
-/

namespace SchemaGo

namespace LowerStep

def trace (tree : FileTree) : LowerStep → Traced Unit
  | .reject _ => Traced.ofOption none
  | .embed file _ => do
    let _ ← Traced.read tree file
    pure ()

def traceAll (steps : List LowerStep) (tree : FileTree) : Traced Unit :=
  steps.foldlM (fun _ step => step.trace tree) ()

theorem result_trace_iff (step : LowerStep) (tree : FileTree) :
    (step.trace tree).result = some () ↔ step.fault? tree = none := by
  cases step with
  | reject fault => simp [trace, fault?]
  | embed file around =>
      cases hread : tree.read file <;>
        simp [trace, fault?, Traced.result_bind, Traced.read, hread, Except.toOption]

theorem result_traceAll_iff (steps : List LowerStep) (tree : FileTree) :
    (traceAll steps tree).result = some () ↔ faults tree steps = [] := by
  induction steps with
  | nil => simp [traceAll, faults]
  | cons step rest ih =>
      rw [traceAll, List.foldlM_cons, Traced.result_bind, faults, List.filterMap_eq_nil_iff,
        List.forall_mem_cons, ← List.filterMap_eq_nil_iff, ← result_trace_iff, ← faults, ← ih,
        traceAll]
      cases (step.trace tree).result <;> simp

theorem mem_reads_traceAll {steps : List LowerStep} {tree : FileTree}
    (h : faults tree steps = []) {file : String} (hfile : file ∈ files steps) :
    file ∈ (traceAll steps tree).reads := by
  induction steps with
  | nil => cases hfile
  | cons step rest ih =>
      rw [faults, List.filterMap_eq_nil_iff, List.forall_mem_cons, ← result_trace_iff,
        ← List.filterMap_eq_nil_iff] at h
      rw [traceAll, List.foldlM_cons]
      obtain ⟨own, hown, hasks⟩ := List.mem_filterMap.mp hfile
      rcases List.mem_cons.mp hown with rfl | hrest
      · cases own with
        | reject fault => cases hasks
        | embed other around =>
            cases hasks
            exact Traced.mem_reads_bind _ (Traced.mem_reads_bind _ (List.mem_singleton.mpr rfl))
      · exact Traced.mem_reads_next h.1 (ih h.2 (List.mem_filterMap.mpr ⟨own, hrest, hasks⟩))

theorem determined_traceAll (steps : List LowerStep) : Traced.Determined (traceAll steps) := by
  refine Traced.determined_foldlM (fun _ step => ?_) steps ()
  cases step with
  | reject fault => exact Traced.determined_const _
  | embed file around =>
      exact (Traced.determined_read file).bind fun _ => Traced.determined_const _

end LowerStep

namespace Schema.Linked

/-- The steps of lowering a file do not depend on the file tree. -/
def steps (linked : Linked) (id : Ast.FileId) : List LowerStep :=
  linked.file.steps (linked.context (.empty []) id)

theorem follows_lower (linked : Linked) (id : Ast.FileId) :
    Lowering.Follows (fun tree => Lowering.parts (linked.context tree id) linked.file)
      (linked.steps id) :=
  Lowering.follows_parts (linked.context (.empty []) id) linked.file

def traceLower (linked : Linked) (id : Ast.FileId) (tree : FileTree) : Traced Ast.File := do
  LowerStep.traceAll (linked.steps id) tree
  Traced.ofOption (linked.lower tree id).toOption

theorem lower_eq_of_parts {linked : Linked} {id : Ast.FileId} {tree tree' : FileTree}
    (h : Lowering.parts (linked.context tree' id) linked.file [] =
      Lowering.parts (linked.context tree id) linked.file []) :
    linked.lower tree' id = linked.lower tree id := by
  simp only [context] at h
  simp only [lower, h]

theorem result_traceLower (linked : Linked) (id : Ast.FileId) (tree : FileTree) :
    (linked.traceLower id tree).result = (linked.lower tree id).toOption := by
  rw [traceLower, Traced.result_bind]
  have hstops := (linked.follows_lower id).stops tree
  cases hfaults : LowerStep.faults tree (linked.steps id) with
  | nil =>
      rw [(LowerStep.result_traceAll_iff _ _).mpr hfaults]
      rfl
  | cons fault later =>
      have hrun := hstops fault (by rw [hfaults, List.head?_cons]) []
      have hlower : linked.lower tree id = .error fault := by
        simp only [context] at hrun
        simp only [lower, hrun]
      rw [hlower]
      cases (LowerStep.traceAll (linked.steps id) tree).result <;> rfl

theorem determined_traceLower (linked : Linked) (id : Ast.FileId) :
    Traced.Determined (linked.traceLower id) := by
  intro tree tree' hsame
  have hsteps := LowerStep.determined_traceAll (linked.steps id) tree tree' fun file hfile =>
    hsame file (Traced.mem_reads_bind _ hfile)
  rw [traceLower, traceLower, hsteps]
  refine Traced.bind_congr_of_result fun _ hresult => ?_
  have hfaults := (LowerStep.result_traceAll_iff _ _).mp hresult
  obtain ⟨result, hpasses⟩ := (linked.follows_lower id).passes tree hfaults
  have hrun' := hpasses tree' fun file hfile =>
    hsame file (Traced.mem_reads_bind _ (LowerStep.mem_reads_traceAll hfaults hfile))
  have hlower := lower_eq_of_parts ((hrun' []).trans (hpasses tree (fun _ _ => rfl) []).symm)
  rw [hlower]

end Schema.Linked

end SchemaGo
