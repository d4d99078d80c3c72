import Mathlib.Data.List.Forall2

/-!
# Computations that succeed or stop

What a successful run says about its steps: a step before the rest has succeeded,
and a list of results comes from as many successful steps.  For computations with
a state only their results count here.  A run that fails stops at the first of the
faults on its way.
-/

namespace SchemaGo

variable {σ ε α β : Type}

theorem exists_ok_of_bind {action : Except ε α} {next : α → Except ε β} {result : β}
    (h : action >>= next = .ok result) :
    ∃ middle, action = .ok middle ∧ next middle = .ok result := by
  cases action with
  | error fault => cases h
  | ok middle => exact ⟨middle, rfl, h⟩

theorem exists_eq_ok_of_isOk {action : Except ε α} (h : action.isOk) :
    ∃ result, action = .ok result := by
  cases action with
  | error fault => cases h
  | ok result => exact ⟨result, rfl⟩

theorem exists_eq_ok_of_map {action : Except ε α} {view : α → β} {seen : β}
    (h : action.toOption.map view = some seen) :
    ∃ result, action = .ok result ∧ view result = seen := by
  cases action with
  | error fault => cases h
  | ok result => exact ⟨result, rfl, Option.some.inj h⟩

theorem exists_eq_ok_of_any {action : Except ε α} {holds : α → Bool}
    (h : action.toOption.any holds) : ∃ result, action = .ok result ∧ holds result := by
  cases action with
  | error fault => cases h
  | ok result => exact ⟨result, rfl, h⟩

theorem exists_eq_error_of_isOk {action : Except ε α} (h : action.isOk = false) :
    ∃ fault, action = .error fault := by
  cases action with
  | error fault => exact ⟨fault, rfl⟩
  | ok result => cases h

theorem map_eq_ok_iff {action : Except ε α} {f : α → β} {result : β} :
    action.map f = .ok result ↔ ∃ middle, action = .ok middle ∧ f middle = result := by
  cases action with
  | error fault => simp [Except.map]
  | ok middle => simp [Except.map]

theorem forall₂_of_mapM {f : α → Except ε β} {items : List α} {results : List β}
    (h : items.mapM f = .ok results) :
    List.Forall₂ (fun item result => f item = .ok result) items results := by
  induction items generalizing results with
  | nil =>
      cases h
      exact .nil
  | cons item items ih =>
      rw [List.mapM_cons] at h
      obtain ⟨first, hfirst, h⟩ := exists_ok_of_bind h
      obtain ⟨rest, hrest, h⟩ := exists_ok_of_bind h
      cases h
      exact .cons hfirst (ih hrest)

theorem exists_of_mem_right {R : α → β → Prop} {items : List α} {results : List β}
    (h : List.Forall₂ R items results) {result : β} (hresult : result ∈ results) :
    ∃ item ∈ items, R item result := by
  induction h with
  | nil => cases hresult
  | cons hfirst _ ih =>
      rcases List.mem_cons.mp hresult with rfl | hresult
      · exact ⟨_, List.mem_cons_self, hfirst⟩
      · obtain ⟨item, hitem, hrelated⟩ := ih hresult
        exact ⟨item, List.mem_cons_of_mem _ hitem, hrelated⟩

theorem mem_iff_of_mapM {f : α → Except ε β} {items : List α} {results : List β}
    (h : items.mapM f = .ok results) (result : β) :
    result ∈ results ↔ ∃ item ∈ items, f item = .ok result := by
  refine ⟨exists_of_mem_right (forall₂_of_mapM h), ?_⟩
  rintro ⟨item, hitem, hresult⟩
  obtain ⟨other, hother, hsame⟩ := exists_of_mem_right (forall₂_of_mapM h).flip hitem
  rwa [Except.ok.inj (hresult.symm.trans hsame)]

theorem exists_mapM_eq_ok {f : α → Except ε β} {items : List α}
    (h : ∀ item ∈ items, ∃ result, f item = .ok result) :
    ∃ results, items.mapM f = .ok results := by
  induction items with
  | nil => exact ⟨[], rfl⟩
  | cons item items ih =>
      obtain ⟨⟨first, hfirst⟩, hitems⟩ := List.forall_mem_cons.mp h
      obtain ⟨rest, hrest⟩ := ih hitems
      refine ⟨first :: rest, ?_⟩
      rw [List.mapM_cons, hfirst, hrest]
      rfl

theorem map_eq_map_of_forall₂ {γ : Type} {R : α → β → Prop} {items : List α} {results : List β}
    {f : α → γ} {g : β → γ} (h : List.Forall₂ R items results)
    (hsame : ∀ item result, R item result → f item = g result) : items.map f = results.map g := by
  induction h with
  | nil => rfl
  | cons hfirst _ ih => rw [List.map_cons, List.map_cons, hsame _ _ hfirst, ih]

def Yields (action : StateT σ (Except ε) α) (result : α) : Prop :=
  ∃ before after, action before = .ok (result, after)

namespace Yields

theorem of_pure {expected result : α}
    (h : Yields (pure expected : StateT σ (Except ε) α) result) : result = expected := by
  obtain ⟨before, after, h⟩ := h
  cases h
  rfl

theorem of_bind {action : StateT σ (Except ε) α} {next : α → StateT σ (Except ε) β} {result : β}
    (h : Yields (action >>= next) result) :
    ∃ middle, Yields action middle ∧ Yields (next middle) result := by
  obtain ⟨before, after, h⟩ := h
  have h : (action before >>= fun run => next run.1 run.2) = .ok (result, after) := h
  obtain ⟨⟨middle, between⟩, hrun, hnext⟩ := exists_ok_of_bind h
  exact ⟨middle, ⟨before, between, hrun⟩, between, after, hnext⟩

theorem of_lift {action : Except ε α} {result : α}
    (h : Yields (liftM action : StateT σ (Except ε) α) result) : action = .ok result := by
  obtain ⟨before, after, h⟩ := h
  have h : (action >>= fun result => .ok (result, before)) = .ok (result, after) := h
  obtain ⟨middle, hmiddle, h⟩ := exists_ok_of_bind h
  cases h
  exact hmiddle

end Yields

/-- A run ends with the first of the faults, and with a result if there are none. -/
inductive Stops : List ε → Except ε α → Prop
  | never (result : α) : Stops [] (.ok result)
  | first (fault : ε) (later : List ε) : Stops (fault :: later) (.error fault)

namespace Stops

variable {faults more : List ε} {run : Except ε α}

theorem bind {next : α → Except ε β} (h : Stops faults run)
    (hnext : ∀ value, Stops more (next value)) : Stops (faults ++ more) (run >>= next) := by
  cases h with
  | never result => exact hnext result
  | first fault later => exact .first fault (later ++ more)

theorem error_iff (h : Stops faults run) (fault : ε) :
    run = .error fault ↔ faults.head? = some fault := by
  cases h <;> simp

theorem ok_iff (h : Stops faults run) : (∃ result, run = .ok result) ↔ faults = [] := by
  cases h <;> simp

end Stops

end SchemaGo
