import SchemaGo.Proofs.Option.Union

/-!
# Normalizing a service twice

The zeros that the first run fills in take part in the union of the second
run, sometimes in front of the values that decided the first one.  The second
union is squeezed between the first union and itself: what is known after each
rpc is never less than it was in the first run, and never more than the first
union.  `Filled` is the relation between the shape of a value and the shape of
the filled value that carries this step, also through lists, whose items are
merged among themselves before they meet the shapes of other rpcs.
-/

namespace SchemaGo

namespace OptionShape

def Apart : OptionShape → OptionShape → Prop
  | _, .unknown => False
  | .leaf type, .leaf other => type ≠ other
  | .list _, .list _ => False
  | .map _, .map _ => False
  | _, _ => True

theorem Apart.ne_unknown {bound shape : OptionShape} (h : Apart bound shape) :
    shape ≠ .unknown := by
  rintro rfl
  cases bound <;> exact h

theorem apart_unknown_ofValue (value : OptionValue) :
    Apart .unknown (ofValue value) := by
  cases value <;> trivial

theorem Apart.not_below {bound shape : OptionShape} (h : Apart bound shape) :
    ¬ Below shape bound := by
  intro hbelow
  cases hbelow <;> simp [Apart] at h

theorem Apart.merge {bound shape : OptionShape} (h : Apart bound shape)
    (other : OptionShape) : Apart bound (OptionShape.merge shape other) := by
  cases bound <;> cases shape <;> cases other <;> first | exact h | simp [Apart] at h

theorem Apart.merge_eq {bound shape known : OptionShape}
    (h : Apart bound shape) (hknown : Below known bound)
    (hne : known ≠ .unknown) : OptionShape.merge known shape = known := by
  cases hknown with
  | unknown => exact absurd rfl hne
  | leaf => rfl
  | list => cases shape <;> first | rfl | simp [Apart] at h
  | map => cases shape <;> first | rfl | simp [Apart] at h

/-- `Filled bound shape filled`: the third shape is that of a value of the
second shape, or of several such values, filled against the first.  Where the
value has nothing there may be zeros, which are below the bound; where it is
apart from the bound nothing is filled, but a zero of another item may have
come in front of it. -/
inductive Filled : OptionShape → OptionShape → OptionShape → Prop
  | unknown {bound filled : OptionShape} (hfilled : Below filled bound) :
      Filled bound .unknown filled
  | leaf (type : ScalarType) : Filled (.leaf type) (.leaf type) (.leaf type)
  | list {bound shape filled : OptionShape} (hitem : Filled bound shape filled) :
      Filled (.list bound) (.list shape) (.list filled)
  | map {bounds shapes filled : Table OptionShape}
      (hkeys : ∀ key,
        Filled (atKey bounds key) (atKey shapes key) (atKey filled key)) :
      Filled (.map bounds) (.map shapes) (.map filled)
  | apart {bound shape filled : OptionShape} (hshape : Apart bound shape)
      (hne : filled ≠ .unknown)
      (hfilled : Apart bound filled ∨ Below filled bound) :
      Filled bound shape filled

theorem Filled.of_apart {bound shape : OptionShape} (h : Apart bound shape) :
    Filled bound shape shape :=
  .apart h h.ne_unknown (.inl h)

/-! ## The squeeze -/

/-- One step of the two unions: if the second run knows at least as much as
the first before a value, and no more than the bound, then so it does after
the value. -/
theorem Filled.squeeze {bound shape filled : OptionShape}
    (h : Filled bound shape filled) {known known' : OptionShape}
    (hlow : Below known known') (hhigh : Below known' bound)
    (hnext : Below (OptionShape.merge known shape) bound) :
    Below (OptionShape.merge known shape) (OptionShape.merge known' filled) ∧
      Below (OptionShape.merge known' filled) bound := by
  induction h generalizing known known' with
  | unknown hfilled =>
      rw [merge_unknown_right]
      exact ⟨hlow.trans (below_merge_left _ _), hhigh.merge hfilled⟩
  | leaf type =>
      cases hhigh with
      | unknown =>
          cases hlow
          exact ⟨.leaf type, .leaf type⟩
      | leaf => exact ⟨hnext, .leaf type⟩
  | list _ ih =>
      cases hhigh with
      | unknown =>
          cases hlow
          simp only [merge_unknown_left, below_list_iff] at hnext ⊢
          exact ih (.unknown _) (.unknown _) hnext
      | list hhigh =>
          cases hlow with
          | unknown =>
              simp only [merge_unknown_left, merge_list_list, below_list_iff]
                at hnext ⊢
              exact ih (.unknown _) hhigh hnext
          | list hlow =>
              simp only [merge_list_list, below_list_iff] at hnext ⊢
              exact ih hlow hhigh hnext
  | map _ ih =>
      cases hhigh with
      | unknown =>
          cases hlow
          simp only [merge_unknown_left, below_map_iff, ← forall_and] at hnext ⊢
          exact fun key => ih key (.unknown _) (.unknown _) (hnext key)
      | map hhigh =>
          cases hlow with
          | unknown =>
              simp only [merge_unknown_left, merge_map_map, below_map_iff,
                atKey_mergeTables, ← forall_and] at hnext ⊢
              exact fun key => ih key (.unknown _) (hhigh key) (hnext key)
          | map hlow =>
              simp only [merge_map_map, below_map_iff, atKey_mergeTables,
                ← forall_and] at hnext ⊢
              exact fun key => ih key (hlow key) (hhigh key) (hnext key)
  | apart hshape _ hfilled =>
      have hne : known ≠ .unknown := by
        rintro rfl
        exact hshape.not_below hnext
      have hne' : known' ≠ .unknown := by
        rintro rfl
        cases hlow
        exact hne rfl
      rw [hshape.merge_eq (hlow.trans hhigh) hne]
      rcases hfilled with hfilled | hfilled
      · rw [hfilled.merge_eq hhigh hne']
        exact ⟨hlow, hhigh⟩
      · exact ⟨hlow.trans (below_merge_left _ _), hhigh.merge hfilled⟩

/-! ## Filled items of a list -/

theorem Filled.merge_zero_left {bound shape filled zeros : OptionShape}
    (h : Filled bound shape filled) (hzeros : Below zeros bound) :
    Filled bound shape (OptionShape.merge zeros filled) := by
  induction h generalizing zeros with
  | unknown hfilled => exact .unknown (hzeros.merge hfilled)
  | leaf type => cases hzeros <;> exact .leaf type
  | list hitem ih =>
      cases hzeros with
      | unknown => exact .list hitem
      | list hzeros => exact .list (ih hzeros)
  | map hkeys ih =>
      cases hzeros with
      | unknown => exact .map hkeys
      | map hzeros =>
          rw [merge_map_map]
          refine .map fun key => ?_
          rw [atKey_mergeTables]
          exact ih key (hzeros key)
  | apart hshape hne hfilled =>
      by_cases hzero : zeros = .unknown
      · subst hzero
        exact .apart hshape hne hfilled
      · refine .apart hshape (fun h => hzero (merge_eq_unknown_iff.mp h).1) (.inr ?_)
        rcases hfilled with hfilled | hfilled
        · rwa [hfilled.merge_eq hzeros hzero]
        · exact hzeros.merge hfilled

theorem apart_or_below_merge {bound left right : OptionShape}
    (hne : left ≠ .unknown) (hleft : Apart bound left ∨ Below left bound)
    (hright : Apart bound right ∨ Below right bound) :
    Apart bound (merge left right) ∨ Below (merge left right) bound := by
  rcases hleft with hleft | hleft
  · exact .inl (hleft.merge right)
  · rcases hright with hright | hright
    · exact .inr (by rwa [hright.merge_eq hleft hne])
    · exact .inr (hleft.merge hright)

theorem Filled.merge_zero_right {bound shape filled zeros : OptionShape}
    (h : Filled bound shape filled) (hzeros : Below zeros bound) :
    Filled bound shape (OptionShape.merge filled zeros) := by
  induction h generalizing zeros with
  | unknown hfilled => exact .unknown (hfilled.merge hzeros)
  | leaf type => exact .leaf type
  | list hitem ih =>
      cases hzeros with
      | unknown => exact .list hitem
      | list hzeros => exact .list (ih hzeros)
  | map hkeys ih =>
      cases hzeros with
      | unknown => exact .map hkeys
      | map hzeros =>
          rw [merge_map_map]
          refine .map fun key => ?_
          rw [atKey_mergeTables]
          exact ih key (hzeros key)
  | apart hshape hne hfilled =>
      exact .apart hshape (fun h => hne (merge_eq_unknown_iff.mp h).1)
        (apart_or_below_merge hne hfilled (.inr hzeros))

theorem Filled.apart_or_below {bound first shape filled : OptionShape}
    (hfirst : Apart bound first) (halike : Alike first shape)
    (h : Filled bound shape filled) :
    Apart bound filled ∨ Below filled bound := by
  cases h with
  | unknown hfilled => exact .inr hfilled
  | leaf type => exact .inr (.leaf type)
  | list => cases halike <;> simp [Apart] at hfirst
  | map => cases halike <;> simp [Apart] at hfirst
  | apart _ _ hfilled => exact hfilled

theorem Filled.merge {bound left right filled filled' : OptionShape}
    (hleft : Filled bound left filled) (hright : Filled bound right filled')
    (halike : Alike left right) :
    Filled bound (OptionShape.merge left right)
      (OptionShape.merge filled filled') := by
  induction hleft generalizing right filled' with
  | unknown hfilled => exact hright.merge_zero_left hfilled
  | leaf type => exact .leaf type
  | list hitem ih =>
      cases hright with
      | unknown hfilled => exact (Filled.list hitem).merge_zero_right hfilled
      | list hother =>
          cases halike with
          | list halike => exact .list (ih hother halike)
      | apart hapart => cases halike <;> simp [Apart] at hapart
  | map hkeys ih =>
      cases hright with
      | unknown hfilled => exact (Filled.map hkeys).merge_zero_right hfilled
      | map hothers =>
          rw [merge_map_map, merge_map_map]
          refine .map fun key => ?_
          rw [atKey_mergeTables, atKey_mergeTables]
          exact ih key (hothers key) (matches_map_iff.mp halike key)
      | apart hapart => cases halike <;> simp [Apart] at hapart
  | apart hshape hne hfilled =>
      exact .apart (hshape.merge right)
        (fun h => hne (merge_eq_unknown_iff.mp h).1)
        (apart_or_below_merge hne hfilled
          (hright.apart_or_below hshape halike))

theorem filled_ofItems {bound known known' : OptionShape}
    {items : List OptionValue} (hknown : Filled bound known known')
    (hitems : ∀ item ∈ items,
      Filled bound (ofValue item) (ofValue (fill bound item)))
    (halike : items.Pairwise fun item other =>
      Alike (ofValue item) (ofValue other))
    (hfirst : ∀ item ∈ items, Alike known (ofValue item)) :
    Filled bound (ofItems known items)
      (ofItems known' (items.map (fill bound))) := by
  induction items generalizing known known' with
  | nil => exact hknown
  | cons item rest ih =>
      obtain ⟨hitem, hrest⟩ := List.pairwise_cons.mp halike
      apply ih
      · exact hknown.merge (hitems item (by simp)) (hfirst item (by simp))
      · exact fun other hother => hitems other (by simp [hother])
      · exact hrest
      · exact fun other hother =>
          (hfirst other (by simp [hother])).merge (hitem other hother)

theorem filled_fill {bound : OptionShape} {value : OptionValue}
    (hbound : WellFormed bound) (h : value.ListsAlike) :
    Filled bound (ofValue value) (ofValue (fill bound value)) := by
  induction h generalizing bound with
  | scalar scalar =>
      rw [fill_scalar, ofValue_scalar]
      cases bound with
      | leaf type =>
          by_cases htype : type = scalar.type
          · exact htype ▸ .leaf type
          · exact .of_apart htype
      | _ => exact .of_apart trivial
  | list halike _ ih =>
      cases hbound with
      | list hbound =>
          exact .list (filled_ofItems (.unknown (.unknown _))
            (fun item hmem => ih item hmem hbound) halike
            fun item _ => .unknownLeft _)
      | _ => exact .of_apart trivial
  | @map entries _ ih =>
      cases hbound with
      | @map bounds hsorted hknown hparts =>
          rw [fill_map_map, ofValue_map, ofValue_map]
          refine .map fun key => ?_
          cases hkey : Table.get? bounds key with
          | none =>
              have hfilled := get?_fillEntries_of_none hkey entries
              rw [atKey_of_none hkey]
              cases hentry : Table.get? entries key with
              | none =>
                  rw [hentry] at hfilled
                  rw [atKey_ofEntries_of_none hentry,
                    atKey_ofEntries_of_none hfilled]
                  exact .unknown (.unknown _)
              | some value =>
                  rw [hentry] at hfilled
                  rw [atKey_ofEntries_of_get? hentry,
                    atKey_ofEntries_of_get? hfilled]
                  exact .of_apart (apart_unknown_ofValue value)
          | some bound =>
              have hfilled := get?_fillEntries_of_some hsorted hkey entries
              have hwell := atKey_of_get? hkey ▸ hparts key
              rw [atKey_of_get? hkey, atKey_ofEntries_of_get? hfilled]
              cases hentry : Table.get? entries key with
              | none =>
                  rw [atKey_ofEntries_of_none hentry]
                  exact .unknown (below_ofValue_zero hwell
                    fun h => hknown key (h ▸ hkey))
              | some value =>
                  rw [atKey_ofEntries_of_get? hentry]
                  exact ih _ (Table.mem_of_get? hentry) hwell
      | _ => exact .of_apart trivial

end OptionShape

/-! ## Rpc after rpc -/

open OptionShape

theorem unionFrom_squeeze {bound known known' : Table OptionShape}
    {rpcs : List Ast.Rpc} (hbound : WellFormed (.map bound))
    (halike : ∀ rpc ∈ rpcs, OptionValue.ListsAlike (.map rpc.options))
    (hlow : Below (.map known) (.map known'))
    (hhigh : Below (.map known') (.map bound))
    (htop : Below (.map (unionFrom known rpcs)) (.map bound)) :
    Below (.map (unionFrom known rpcs))
        (.map (unionFrom known' (rpcs.map (fillRpc bound)))) ∧
      Below (.map (unionFrom known' (rpcs.map (fillRpc bound))))
        (.map bound) := by
  induction rpcs generalizing known known' with
  | nil => exact ⟨hlow, hhigh⟩
  | cons rpc rest ih =>
      have hnext : Below (.map (mergeTables known (ofEntries rpc.options)))
          (.map bound) := (below_unionFrom _ rest).trans htop
      have hfilled := filled_fill hbound (halike rpc (by simp))
      obtain ⟨hlow', hhigh'⟩ := hfilled.squeeze hlow hhigh hnext
      exact ih (fun other hother => halike other (by simp [hother]))
        hlow' hhigh' htop

theorem unionShapes_fillRpc {rpcs : List Ast.Rpc}
    (hsorted : ∀ rpc ∈ rpcs, OptionValue.IsSorted (.map rpc.options))
    (halike : ∀ rpc ∈ rpcs, OptionValue.ListsAlike (.map rpc.options)) :
    unionShapes (rpcs.map (fillRpc (unionShapes rpcs))) = unionShapes rpcs := by
  have hbound := wellFormed_unionShapes hsorted
  have hfilled : WellFormed
      (.map (unionShapes (rpcs.map (fillRpc (unionShapes rpcs))))) := by
    apply wellFormed_unionShapes
    intro rpc hrpc
    obtain ⟨original, horiginal, rfl⟩ := List.mem_map.mp hrpc
    exact isSorted_fillRpc hbound (hsorted original horiginal)
  obtain ⟨hlow, hhigh⟩ := unionFrom_squeeze hbound halike
    (.refl (.map [])) (.map fun _ => .unknown _) (.refl _)
  exact OptionShape.map.inj (hhigh.antisymm hfilled hbound hlow)

theorem normalizeService_normalizeService {service : Ast.Service}
    (hsorted : ∀ rpc ∈ service.rpcs, OptionValue.IsSorted (.map rpc.options))
    (halike : ∀ rpc ∈ service.rpcs, OptionValue.ListsAlike (.map rpc.options)) :
    normalizeService (normalizeService service) = normalizeService service := by
  have hunion := unionShapes_fillRpc hsorted halike
  have hbound := wellFormed_unionShapes hsorted
  have hrpcs : (service.rpcs.map (fillRpc (unionShapes service.rpcs))).map
      (fillRpc (unionShapes service.rpcs)) =
        service.rpcs.map (fillRpc (unionShapes service.rpcs)) := by
    rw [List.map_map]
    exact List.map_congr_left fun rpc hrpc =>
      fillRpc_fillRpc hbound (hsorted rpc hrpc)
  simp only [normalizeService, hunion, hrpcs, Table.insert_insert_self]

/-- Normalizing a normal service changes nothing, and both runs fill against
the same union. -/
theorem normalizeService_idempotent (service : Ast.Service)
    (hsorted : ∀ rpc ∈ service.rpcs, OptionValue.IsSorted (.map rpc.options))
    (halike : ∀ rpc ∈ service.rpcs, OptionValue.ListsAlike (.map rpc.options)) :
    unionShapes (normalizeService service).rpcs = unionShapes service.rpcs ∧
      normalizeService (normalizeService service) = normalizeService service :=
  ⟨unionShapes_fillRpc hsorted halike, normalizeService_normalizeService hsorted halike⟩

theorem normalizeService_idempotent_clashing :
    unionShapes (normalizeService clashingService).rpcs =
        unionShapes clashingService.rpcs ∧
      normalizeService (normalizeService clashingService) =
        normalizeService clashingService :=
  normalizeService_idempotent clashingService clashingService_isSorted
    clashingService_listsAlike

end SchemaGo
