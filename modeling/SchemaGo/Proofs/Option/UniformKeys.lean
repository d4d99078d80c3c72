import SchemaGo.Proofs.Option.Union

/-!
# The keys of normal rpcs

The union of the shapes and the options of a normal rpc are walked together,
by key through maps and into every item through lists.  Wherever both are
maps the value has every key of the union, and if the items of lists are
alike it has no other.
-/

namespace SchemaGo

inductive OptionStep where
  | key (name : String)
  | item
deriving DecidableEq, Repr

/-- `Reaches shape value path s v`: following the path in both, one can get
from the shape to `s` and from the value to `v`. -/
inductive Reaches : OptionShape → OptionValue → List OptionStep →
    OptionShape → OptionValue → Prop
  | here (shape : OptionShape) (value : OptionValue) :
      Reaches shape value [] shape value
  | key {shapes : Table OptionShape} {entries : OptionMap} {name : String}
      {shape reachedShape : OptionShape} {value reached : OptionValue}
      {path : List OptionStep} (hshape : Table.get? shapes name = some shape)
      (hvalue : Table.get? entries name = some value)
      (hrest : Reaches shape value path reachedShape reached) :
      Reaches (.map shapes) (.map entries) (.key name :: path) reachedShape reached
  | item {shape reachedShape : OptionShape} {items : List OptionValue}
      {value reached : OptionValue} {path : List OptionStep}
      (hmem : value ∈ items)
      (hrest : Reaches shape value path reachedShape reached) :
      Reaches (.list shape) (.list items) (.item :: path) reachedShape reached

theorem Reaches.shape_unique {shape first second : OptionShape}
    {value other reached reached' : OptionValue} {path : List OptionStep}
    (h : Reaches shape value path first reached)
    (h' : Reaches shape other path second reached') : first = second := by
  induction h generalizing other with
  | here =>
      cases h'
      rfl
  | key hshape _ _ ih =>
      cases h' with
      | key hshape' _ hrest' =>
          cases hshape.symm.trans hshape'
          exact ih hrest'
  | item _ _ ih =>
      cases h' with
      | item _ hrest' => exact ih hrest'

namespace OptionShape

/-! ## Items that add nothing -/

/-- Of alike shapes none hides anything of another, so a bound to which their
union adds nothing learns nothing from either. -/
theorem below_of_merge_alike {bound left right : OptionShape}
    (halike : Alike left right)
    (h : Below (merge bound (merge left right)) bound) :
    Below (merge bound left) bound ∧ Below (merge bound right) bound := by
  induction bound using inductionOnKeys generalizing left right with
  | leaf type => exact ⟨.leaf type, .leaf type⟩
  | unknown =>
      simp only [merge_unknown_left, below_unknown_iff, merge_eq_unknown_iff]
        at h ⊢
      exact h
  | list item ih =>
      cases halike with
      | unknownLeft => exact ⟨.refl _, h⟩
      | unknownRight =>
          rw [merge_unknown_right] at h
          exact ⟨h, .refl _⟩
      | list halike =>
          simp only [merge_list_list, below_list_iff] at h ⊢
          exact ih halike h
      | _ => exact ⟨.refl _, .refl _⟩
  | map entries ih =>
      cases left with
      | unknown => exact ⟨.refl _, h⟩
      | map first =>
          cases right with
          | unknown => exact ⟨h, .refl _⟩
          | map second =>
              simp only [merge_map_map, below_map_iff, atKey_mergeTables,
                ← forall_and] at h ⊢
              exact fun key => ih key (matches_map_iff.mp halike key) (h key)
          | _ => cases halike
      | _ => cases halike <;> exact ⟨.refl _, .refl _⟩

theorem below_of_ofItems {bound known : OptionShape} {items : List OptionValue}
    (halike : items.Pairwise fun item other =>
      Alike (ofValue item) (ofValue other))
    (hfirst : ∀ item ∈ items, Alike known (ofValue item))
    (h : Below (merge bound (ofItems known items)) bound) :
    Below (merge bound known) bound ∧
      ∀ item ∈ items, Below (merge bound (ofValue item)) bound := by
  induction items generalizing known with
  | nil => exact ⟨h, by simp⟩
  | cons item rest ih =>
      obtain ⟨hitem, hrest⟩ := List.pairwise_cons.mp halike
      have hnext (other : OptionValue) (hother : other ∈ rest) :
          Alike (merge known (ofValue item)) (ofValue other) :=
        (hfirst other (by simp [hother])).merge (hitem other hother)
      obtain ⟨hmerged, hothers⟩ := ih hrest hnext h
      obtain ⟨hknown, hvalue⟩ :=
        below_of_merge_alike (hfirst item (by simp)) hmerged
      refine ⟨hknown, fun other hother => ?_⟩
      rcases List.mem_cons.mp hother with rfl | hother
      · exact hvalue
      · exact hothers other hother

/-! ## What is reached in a filled value -/

def Fits (shape : OptionShape) : Option OptionValue → Prop
  | none => True
  | some value =>
      value.ListsAlike ∧ Below (merge shape (ofValue value)) shape

def entryAt : Option OptionValue → String → Option OptionValue
  | some (.map entries), key => Table.get? entries key
  | _, _ => none

theorem get?_of_fillAt_map {shapes : Table OptionShape}
    (hsorted : Table.IsSorted shapes) {original : Option OptionValue}
    {entries : OptionMap} (h : fillAt (.map shapes) original = .map entries)
    {key : String} {shape : OptionShape}
    (hkey : Table.get? shapes key = some shape) :
    Table.get? entries key = some (fillAt shape (entryAt original key)) := by
  cases original with
  | none =>
      rw [fillAt, zero_map, OptionValue.map.injEq] at h
      rw [← h, get?_zeroEntries, hkey]
      rfl
  | some value =>
      cases value with
      | map originals =>
          rw [fillAt, fill_map_map, OptionValue.map.injEq] at h
          rw [← h, get?_fillEntries_of_some hsorted hkey]
          rfl
      | _ => cases h

theorem exists_of_fillAt_list {shape : OptionShape}
    {original : Option OptionValue} {items : List OptionValue}
    (h : fillAt (.list shape) original = .list items) {item : OptionValue}
    (hmem : item ∈ items) :
    ∃ originals, original = some (.list originals) ∧
      ∃ value ∈ originals, item = fill shape value := by
  cases original with
  | none =>
      rw [fillAt, zero_list, OptionValue.list.injEq] at h
      subst h
      cases hmem
  | some value =>
      cases value with
      | list originals =>
          rw [fillAt, fill_list_list, OptionValue.list.injEq] at h
          subst h
          obtain ⟨value, hvalue, rfl⟩ := List.mem_map.mp hmem
          exact ⟨originals, rfl, value, hvalue, rfl⟩
      | _ => cases h

theorem Fits.entryAt {shapes : Table OptionShape} {original : Option OptionValue}
    (h : Fits (.map shapes) original) {key : String} {shape : OptionShape}
    (hkey : Table.get? shapes key = some shape) :
    Fits shape (entryAt original key) := by
  match original with
  | some (.map entries) =>
      obtain ⟨halike, hbelow⟩ := h
      rw [OptionShape.entryAt]
      cases hentry : Table.get? entries key with
      | none => trivial
      | some value =>
          rw [ofValue_map, merge_map_map, below_map_iff] at hbelow
          have hat := hbelow key
          rw [atKey_mergeTables, atKey_of_get? hkey,
            atKey_ofEntries_of_get? hentry] at hat
          exact ⟨OptionValue.listsAlike_map_iff.mp halike _
            (Table.mem_of_get? hentry), hat⟩
  | some (.scalar _) => trivial
  | some (.list _) => trivial
  | none => trivial

theorem Fits.item {shape : OptionShape} {originals : List OptionValue}
    (h : Fits (.list shape) (some (.list originals))) {value : OptionValue}
    (hvalue : value ∈ originals) : Fits shape (some value) := by
  obtain ⟨hlists, hbelow⟩ := h
  obtain ⟨halike, hitems⟩ := OptionValue.listsAlike_list_iff.mp hlists
  rw [ofValue_list, merge_list_list, below_list_iff] at hbelow
  exact ⟨hitems value hvalue, (below_of_ofItems halike
    (fun item _ => .unknownLeft _) hbelow).2 value hvalue⟩

end OptionShape

open OptionShape

theorem Reaches.exists_fillAt {bound shape : OptionShape}
    {start reached : OptionValue} {path : List OptionStep}
    (h : Reaches bound start path shape reached) (hbound : WellFormed bound)
    (original : Option OptionValue) (hstart : start = fillAt bound original) :
    WellFormed shape ∧ ∃ source, reached = fillAt shape source ∧
      (Fits bound original → Fits shape source) := by
  induction h generalizing original with
  | here => exact ⟨hbound, original, hstart, id⟩
  | @key shapes entries name _ _ _ _ _ hshape hvalue _ ih =>
      cases hbound with
      | map hsorted _ hparts =>
          have hfilled := get?_of_fillAt_map hsorted hstart.symm hshape
          have hwell := atKey_of_get? hshape ▸ hparts name
          obtain ⟨hreached, source, hsource, hfits⟩ :=
            ih hwell _ (Option.some.inj (hvalue.symm.trans hfilled))
          exact ⟨hreached, source, hsource, fun h => hfits (h.entryAt hshape)⟩
  | item hmem _ ih =>
      cases hbound with
      | list hitem =>
          obtain ⟨originals, rfl, value, hvalue, hfill⟩ :=
            exists_of_fillAt_list hstart.symm hmem
          obtain ⟨hreached, source, hsource, hfits⟩ :=
            ih hitem (some value) hfill
          exact ⟨hreached, source, hsource, fun h => hfits (h.item hvalue)⟩

/-! ## Keys -/

theorem keys_subset_of_fillAt {shapes : Table OptionShape}
    (hsorted : Table.IsSorted shapes) {source : Option OptionValue}
    {entries : OptionMap} (h : fillAt (.map shapes) source = .map entries)
    {key : String} (hkey : key ∈ Table.keys shapes) :
    key ∈ Table.keys entries := by
  rw [Table.mem_keys_iff] at hkey ⊢
  obtain ⟨shape, hshape⟩ := Option.isSome_iff_exists.mp hkey
  rw [get?_of_fillAt_map hsorted h hshape]
  rfl

theorem keys_superset_of_fits {shapes : Table OptionShape}
    {source : Option OptionValue} {entries : OptionMap}
    (h : fillAt (.map shapes) source = .map entries)
    (hfits : Fits (.map shapes) source) {key : String}
    (hkey : key ∈ Table.keys entries) : key ∈ Table.keys shapes := by
  rw [Table.mem_keys_iff] at hkey ⊢
  by_contra hnot
  have hnone : Table.get? shapes key = none := by simpa using hnot
  cases source with
  | none =>
      rw [fillAt, zero_map, OptionValue.map.injEq] at h
      rw [← h, get?_zeroEntries, hnone] at hkey
      cases hkey
  | some value =>
      cases value with
      | map originals =>
          rw [fillAt, fill_map_map, OptionValue.map.injEq] at h
          rw [← h, get?_fillEntries_of_none hnone] at hkey
          obtain ⟨value, hvalue⟩ := Option.isSome_iff_exists.mp hkey
          have hbelow := hfits.2
          rw [ofValue_map, merge_map_map, below_map_iff] at hbelow
          have hat := hbelow key
          rw [atKey_mergeTables, atKey_of_none hnone,
            atKey_ofEntries_of_get? hvalue, merge_unknown_left,
            below_unknown_iff] at hat
          exact ofValue_ne_unknown value hat
      | _ => cases h

theorem Reaches.isSorted {bound shape : OptionShape}
    {start reached : OptionValue} {path : List OptionStep}
    (h : Reaches bound start path shape reached) (hstart : start.IsSorted) :
    reached.IsSorted := by
  induction h with
  | here => exact hstart
  | key _ hvalue _ ih =>
      exact ih ((OptionValue.isSorted_map_iff.mp hstart).2 _
        (Table.mem_of_get? hvalue))
  | item hmem _ ih => exact ih (OptionValue.isSorted_list_iff.mp hstart _ hmem)

theorem fits_unionFrom {known : Table OptionShape} {rpcs : List Ast.Rpc}
    {rpc : Ast.Rpc} (hrpc : rpc ∈ rpcs)
    (halike : OptionValue.ListsAlike (.map rpc.options)) :
    Fits (.map (unionFrom known rpcs)) (some (.map rpc.options)) := by
  induction rpcs generalizing known with
  | nil => cases hrpc
  | cons first rest ih =>
      rcases List.mem_cons.mp hrpc with rfl | hrpc
      · have hmerged : Below (merge (.map known) (.map (ofEntries rpc.options)))
            (.map (unionFrom known (rpc :: rest))) := below_unionFrom _ rest
        exact ⟨halike, merge_below_of_below hmerged⟩
      · exact ih hrpc

theorem keys_subset_of_reaches {service : Ast.Service}
    (hsorted : ∀ rpc ∈ service.rpcs, OptionValue.IsSorted (.map rpc.options))
    {rpc : Ast.Rpc} (hrpc : rpc ∈ (normalizeService service).rpcs)
    {path : List OptionStep} {shapes : Table OptionShape} {entries : OptionMap}
    (h : Reaches (.map (unionShapes service.rpcs)) (.map rpc.options) path
      (.map shapes) (.map entries))
    {key : String} (hkey : key ∈ Table.keys shapes) :
    key ∈ Table.keys entries := by
  obtain ⟨original, -, rfl⟩ := List.mem_map.mp hrpc
  obtain ⟨hwell, source, hsource, -⟩ :=
    h.exists_fillAt (wellFormed_unionShapes hsorted)
      (some (.map original.options)) rfl
  cases hwell with
  | map hshapes => exact keys_subset_of_fillAt hshapes hsource.symm hkey

theorem keys_eq_of_reaches {service : Ast.Service}
    (hsorted : ∀ rpc ∈ service.rpcs, OptionValue.IsSorted (.map rpc.options))
    (halike : ∀ rpc ∈ service.rpcs, OptionValue.ListsAlike (.map rpc.options))
    {rpc : Ast.Rpc} (hrpc : rpc ∈ (normalizeService service).rpcs)
    {path : List OptionStep} {shapes : Table OptionShape} {entries : OptionMap}
    (h : Reaches (.map (unionShapes service.rpcs)) (.map rpc.options) path
      (.map shapes) (.map entries)) :
    Table.keys entries = Table.keys shapes := by
  have hbound := wellFormed_unionShapes hsorted
  have hsubset : ∀ key ∈ Table.keys shapes, key ∈ Table.keys entries :=
    fun key hkey => keys_subset_of_reaches hsorted hrpc h hkey
  obtain ⟨original, horiginal, rfl⟩ := List.mem_map.mp hrpc
  obtain ⟨hwell, source, hsource, hfits⟩ :=
    h.exists_fillAt hbound (some (.map original.options)) rfl
  have hfit := hfits (fits_unionFrom horiginal (halike original horiginal))
  have hentries := h.isSorted (isSorted_fillRpc hbound (hsorted original horiginal))
  cases hwell with
  | map hshapes =>
      refine Table.keys_eq_of_mem_iff
        (OptionValue.isSorted_map_iff.mp hentries).1 hshapes fun key => ?_
      exact ⟨keys_superset_of_fits hsource.symm hfit, hsubset key⟩

/-- The rpcs of a normal service have every key of the union wherever the
union and the options are both maps.  If the items of all lists are alike they
have no other keys there, and so the maps at one position of the union, of any
rpcs and any items, have the same keys. -/
theorem normalizeService_uniform_keys (service : Ast.Service)
    (hsorted : ∀ rpc ∈ service.rpcs, OptionValue.IsSorted (.map rpc.options)) :
    (∀ rpc ∈ (normalizeService service).rpcs, ∀ path shapes entries,
      Reaches (.map (unionShapes service.rpcs)) (.map rpc.options) path
        (.map shapes) (.map entries) →
      ∀ key ∈ Table.keys shapes, key ∈ Table.keys entries) ∧
    ((∀ rpc ∈ service.rpcs, OptionValue.ListsAlike (.map rpc.options)) →
      (∀ rpc ∈ (normalizeService service).rpcs, ∀ path shapes entries,
        Reaches (.map (unionShapes service.rpcs)) (.map rpc.options) path
          (.map shapes) (.map entries) →
        Table.keys entries = Table.keys shapes) ∧
      (∀ first ∈ (normalizeService service).rpcs,
        ∀ second ∈ (normalizeService service).rpcs,
        ∀ path shapes shapes' entries entries',
        Reaches (.map (unionShapes service.rpcs)) (.map first.options) path
          (.map shapes) (.map entries) →
        Reaches (.map (unionShapes service.rpcs)) (.map second.options) path
          (.map shapes') (.map entries') →
        Table.keys entries = Table.keys entries')) := by
  refine ⟨fun rpc hrpc path shapes entries h key hkey =>
    keys_subset_of_reaches hsorted hrpc h hkey, fun halike => ⟨?_, ?_⟩⟩
  · intro rpc hrpc path shapes entries h
    exact keys_eq_of_reaches hsorted halike hrpc h
  · intro first hfirst second hsecond path shapes shapes' entries entries' h h'
    have hshapes := OptionShape.map.inj (h.shape_unique h')
    calc Table.keys entries
        = Table.keys shapes := keys_eq_of_reaches hsorted halike hfirst h
      _ = Table.keys shapes' := by rw [hshapes]
      _ = Table.keys entries' :=
          (keys_eq_of_reaches hsorted halike hsecond h').symm

theorem normalizeService_uniform_keys_clashing :
    ∃ rpc ∈ (normalizeService clashingService).rpcs, ∃ shapes entries,
      Reaches (.map (unionShapes clashingService.rpcs)) (.map rpc.options)
        [.key "Rules", .item] (.map shapes) (.map entries) ∧
      Table.keys entries = Table.keys shapes := by
  have hrpc : (normalizeService clashingService).rpcs[1] ∈
      (normalizeService clashingService).rpcs := List.getElem_mem _
  have hreaches : Reaches (.map (unionShapes clashingService.rpcs))
      (.map (normalizeService clashingService).rpcs[1].options)
      [.key "Rules", .item] (.map [("A", .leaf .int), ("B", .leaf .uint)])
      (.map [("A", .map [("C", .scalar (.bool true))]), ("B", .scalar (.uint 0))]) :=
    .key rfl rfl (.item (List.mem_cons_of_mem _ List.mem_cons_self) (.here _ _))
  exact ⟨_, hrpc, _, _, hreaches,
    ((normalizeService_uniform_keys clashingService clashingService_isSorted).2
      clashingService_listsAlike).1 _ hrpc _ _ _ hreaches⟩

end SchemaGo
