import Mathlib.Data.List.Induction
import Mathlib.Data.List.Nodup

/-!
# The first items by key

Of the items of a list that have the same key the first one is kept.  A walk that
remembers the keys it has seen keeps the same items, so whatever is true of the
first items by key is true of every walk of this form.
-/

namespace SchemaGo

variable {α κ : Type} [DecidableEq κ] (key : α → κ)

/-- The items whose key no earlier item has, in order. -/
def firstByKey (items : List α) : List α :=
  (items.zipIdx.filter fun item => key item.1 ∉ (items.take item.2).map key).map Prod.fst

@[simp] theorem firstByKey_nil : firstByKey key [] = [] := rfl

theorem firstByKey_concat (items : List α) (last : α) :
    firstByKey key (items ++ [last]) =
      firstByKey key items ++ if key last ∈ items.map key then [] else [last] := by
  have hfront : items.zipIdx.filter (fun item =>
        key item.1 ∉ ((items ++ [last]).take item.2).map key) =
      items.zipIdx.filter fun item => key item.1 ∉ (items.take item.2).map key := by
    refine List.filter_congr fun item hitem => ?_
    have hindex : item.2 ≤ items.length := by
      have hlt := List.snd_lt_of_mem_zipIdx hitem
      omega
    rw [List.take_append_of_le_length hindex]
  rw [firstByKey, firstByKey, List.zipIdx_append, List.filter_append, List.map_append, hfront]
  congr 1
  by_cases hseen : key last ∈ items.map key <;> simp_all

/-! ## What is kept -/

theorem firstByKey_sublist (items : List α) : (firstByKey key items).Sublist items := by
  have hfilter := (List.filter_sublist (l := items.zipIdx)
    (p := fun item => key item.1 ∉ (items.take item.2).map key)).map Prod.fst
  rwa [List.zipIdx_map_fst] at hfilter

theorem mem_map_firstByKey (items : List α) (k : κ) :
    k ∈ (firstByKey key items).map key ↔ k ∈ items.map key := by
  induction items using List.reverseRecOn with
  | nil => simp
  | append_singleton items last ih =>
      rw [firstByKey_concat, List.map_append, List.mem_append, ih, List.map_append,
        List.mem_append]
      split
      · rename_i hseen
        constructor
        · rintro (hk | hk)
          · exact .inl hk
          · cases hk
        · rintro (hk | hk)
          · exact .inl hk
          · rw [List.map_singleton, List.mem_singleton] at hk
            exact .inl (hk ▸ hseen)
      · rfl

theorem nodup_map_firstByKey (items : List α) : ((firstByKey key items).map key).Nodup := by
  induction items using List.reverseRecOn with
  | nil => simp
  | append_singleton items last ih =>
      rw [firstByKey_concat]
      split
      · rwa [List.append_nil]
      · rename_i hnew
        rw [List.map_append, List.map_singleton, List.nodup_append]
        refine ⟨ih, List.nodup_singleton _, ?_⟩
        rintro k hk _ hlast rfl
        rw [List.mem_singleton.mp hlast, mem_map_firstByKey] at hk
        exact hnew hk

theorem find?_firstByKey (items : List α) (k : κ) :
    (firstByKey key items).find? (fun item => key item = k) =
      items.find? fun item => key item = k := by
  induction items using List.reverseRecOn with
  | nil => rfl
  | append_singleton items last ih =>
      rw [firstByKey_concat, List.find?_append, ih, List.find?_append]
      split
      · rename_i hseen
        by_cases hk : key last = k
        · have hfound : (items.find? fun item => key item = k).isSome := by
            obtain ⟨item, hitem, hsame⟩ := List.mem_map.mp hseen
            exact List.find?_isSome.mpr ⟨item, hitem, by simpa [hsame] using hk⟩
          obtain ⟨item, hitem⟩ := Option.isSome_iff_exists.mp hfound
          rw [hitem, Option.some_or, Option.some_or]
        · simp [hk]
      · rfl

theorem firstByKey_append (items more : List α) :
    firstByKey key (items ++ more) =
      firstByKey key items ++
        (firstByKey key more).filter fun item => key item ∉ items.map key := by
  induction more using List.reverseRecOn with
  | nil => simp
  | append_singleton more last ih =>
      rw [← List.append_assoc, firstByKey_concat, firstByKey_concat, ih, List.filter_append,
        List.append_assoc]
      congr 2
      by_cases hmore : key last ∈ more.map key
      · have hboth : key last ∈ (items ++ more).map key := by
          rw [List.map_append]
          exact List.mem_append_right _ hmore
        rw [if_pos hboth, if_pos hmore, List.filter_nil]
      · rw [if_neg hmore]
        by_cases hfirst : key last ∈ items.map key <;> simp_all

theorem pairwise_firstByKey_append (items more : List α) :
    (firstByKey key (items ++ more)).Pairwise fun item later =>
      key later ∈ items.map key → key item ∈ items.map key := by
  have hfront : ∀ item ∈ firstByKey key items, key item ∈ items.map key := fun item hitem =>
    List.mem_map_of_mem ((firstByKey_sublist key items).subset hitem)
  rw [firstByKey_append, List.pairwise_append]
  refine ⟨?_, ?_, fun item hitem _ _ _ => hfront item hitem⟩
  · exact List.pairwise_of_forall_mem_list fun item hitem _ _ _ => hfront item hitem
  · refine List.pairwise_of_forall_mem_list fun _ _ later hlater hkey => ?_
    exact absurd hkey (of_decide_eq_true (List.mem_filter.mp hlater).2)

/-! ## The walk -/

def keepNew (seen : List κ) : List α → List α
  | [] => []
  | item :: rest =>
    if key item ∈ seen then keepNew seen rest else item :: keepNew (key item :: seen) rest

theorem firstByKey_append_keepNew {done : List α} {seen : List κ}
    (hseen : ∀ k, k ∈ seen ↔ k ∈ done.map key) (rest : List α) :
    firstByKey key done ++ keepNew key seen rest = firstByKey key (done ++ rest) := by
  induction rest generalizing done seen with
  | nil => simp [keepNew]
  | cons item rest ih =>
      have hsplit : done ++ item :: rest = done ++ [item] ++ rest := by simp
      have hstep := firstByKey_concat key done item
      have hkeys : ∀ k, k ∈ (done ++ [item]).map key ↔ k ∈ seen ∨ k = key item := by
        intro k
        rw [hseen, List.map_append, List.mem_append, List.map_singleton, List.mem_singleton]
      rw [keepNew, hsplit]
      split
      · rename_i hold
        rw [if_pos ((hseen _).mp hold), List.append_nil] at hstep
        rw [← hstep]
        refine ih fun k => ?_
        rw [hkeys]
        refine ⟨.inl, ?_⟩
        rintro (hk | rfl)
        · exact hk
        · exact hold
      · rename_i hnew
        rw [if_neg (mt (hseen _).mpr hnew)] at hstep
        rw [List.append_cons, ← hstep]
        refine ih fun k => ?_
        rw [hkeys, List.mem_cons, or_comm]

theorem keepNew_nil_eq_firstByKey (items : List α) :
    keepNew key [] items = firstByKey key items := by
  have hwalk : firstByKey key [] ++ keepNew key [] items = firstByKey key ([] ++ items) :=
    firstByKey_append_keepNew key (by simp) items
  rwa [firstByKey_nil, List.nil_append, List.nil_append] at hwalk

end SchemaGo
