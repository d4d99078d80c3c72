import SchemaGo.Proofs.Option.Union

/-!
# The order of rpcs

Merging keeps the first of two shapes that conflict, so it is neither commutative
nor associative.  Compatible shapes never conflict, and on them it is both.  A shape
that is compatible with two others is compatible with their union, so along a list of
pairwise compatible rpcs the union so far stays compatible with the rpcs to come, and
the order of the list does not matter.
-/

namespace SchemaGo

namespace OptionShape

/-! ## Merging compatible shapes -/

inductive IsSorted : OptionShape → Prop
  | unknown : IsSorted .unknown
  | leaf (type : ScalarType) : IsSorted (.leaf type)
  | list {item : OptionShape} (hitem : IsSorted item) : IsSorted (.list item)
  | map {entries : Table OptionShape} (hsorted : Table.IsSorted entries)
      (hparts : ∀ key, IsSorted (atKey entries key)) : IsSorted (.map entries)

theorem WellFormed.isSorted {shape : OptionShape} (h : WellFormed shape) : IsSorted shape := by
  induction h with
  | unknown => exact .unknown
  | leaf type => exact .leaf type
  | list _ ih => exact .list ih
  | map hsorted _ _ ih => exact .map hsorted ih

theorem get?_mergeTables (entries others : Table OptionShape) (key : String) :
    Table.get? (mergeTables entries others) key =
      Option.merge merge (Table.get? entries key) (Table.get? others key) := by
  rw [mergeTables, Table.get?_addMissing, mergeEntries_eq_map,
    Table.get?_map fun key shape => merge shape (atKey others key)]
  cases Table.get? entries key with
  | none => cases Table.get? others key <;> rfl
  | some shape =>
      cases hr : Table.get? others key with
      | none => simp [atKey_of_none hr]
      | some other => simp [atKey_of_get? hr]

theorem Compatible.merge_comm {left right : OptionShape} (h : Compatible left right)
    (hleft : IsSorted left) (hright : IsSorted right) :
    OptionShape.merge left right = OptionShape.merge right left := by
  induction h with
  | unknownLeft shape => rw [merge_unknown_left, merge_unknown_right]
  | unknownRight shape => rw [merge_unknown_left, merge_unknown_right]
  | leaf htypes => rw [htypes]
  | list _ ih =>
      obtain - | - | hleft := hleft
      obtain - | - | hright := hright
      rw [merge_list_list, merge_list_list, ih hleft hright]
  | @map entries others _ ih =>
      obtain - | - | - | ⟨hsorted, hparts⟩ := hleft
      obtain - | - | - | ⟨hsorted', hparts'⟩ := hright
      rw [merge_map_map, merge_map_map]
      congr 1
      refine Table.eq_of_get?_eq (isSorted_mergeTables _ hsorted)
        (isSorted_mergeTables _ hsorted') fun key => ?_
      rw [get?_mergeTables, get?_mergeTables]
      cases hl : Table.get? entries key with
      | none => cases Table.get? others key <;> rfl
      | some shape =>
          cases hr : Table.get? others key with
          | none => rfl
          | some other =>
              have hshape := atKey_of_get? hl ▸ hparts key
              have hother := atKey_of_get? hr ▸ hparts' key
              exact congrArg some (ih key shape other hl hr hshape hother)

/-- Only a shape in the middle that conflicts with a neighbour can keep the two apart. -/
theorem Compatible.merge_assoc {left middle right : OptionShape}
    (hleft : Compatible left middle) (hright : Compatible middle right)
    (hsorted : IsSorted left) :
    OptionShape.merge (OptionShape.merge left middle) right =
      OptionShape.merge left (OptionShape.merge middle right) := by
  induction hsorted generalizing middle right with
  | unknown => rfl
  | leaf type => rfl
  | list _ ih =>
      cases hleft with
      | unknownRight => rw [merge_unknown_right, merge_unknown_left]
      | list hleft =>
          cases hright with
          | unknownRight => rw [merge_unknown_right, merge_unknown_right]
          | list hright => simp only [merge_list_list, ih hleft hright]
  | @map entries hsorted _ ih =>
      cases middle with
      | unknown => rw [merge_unknown_right, merge_unknown_left]
      | map others =>
          cases right with
          | unknown => rw [merge_unknown_right, merge_unknown_right]
          | map thirds =>
              replace hleft := matches_map_iff.mp hleft
              replace hright := matches_map_iff.mp hright
              simp only [merge_map_map, OptionShape.map.injEq]
              refine Table.eq_of_get?_eq
                (isSorted_mergeTables _ (isSorted_mergeTables _ hsorted))
                (isSorted_mergeTables _ hsorted) fun key => ?_
              have hkey := ih key (hleft key) (hright key)
              simp only [get?_mergeTables]
              cases hl : Table.get? entries key with
              | none => simp
              | some shape =>
                  cases hm : Table.get? others key with
                  | none => simp
                  | some other =>
                      cases hr : Table.get? thirds key with
                      | none => simp
                      | some third =>
                          rw [atKey_of_get? hl, atKey_of_get? hm, atKey_of_get? hr] at hkey
                          exact congrArg some hkey
          | _ => cases hright
      | _ => cases hleft

theorem Compatible.merge_right_comm {known first second : OptionShape}
    (hfirst : Compatible known first) (hsecond : Compatible known second)
    (h : Compatible first second) (hknown : IsSorted known) (hsorted : IsSorted first)
    (hsorted' : IsSorted second) :
    OptionShape.merge (OptionShape.merge known first) second =
      OptionShape.merge (OptionShape.merge known second) first := by
  rw [hfirst.merge_assoc h hknown, hsecond.merge_assoc (h.symm fun _ _ => Eq.symm) hknown,
    h.merge_comm hsorted hsorted']

theorem merge_not_comm :
    merge (.leaf .bool) (.leaf .int) ≠ merge (.leaf .int) (.leaf .bool) := by
  simp

theorem merge_not_assoc :
    merge (merge (.list .unknown) (.leaf .bool)) (.list (.leaf .bool)) ≠
      merge (.list .unknown) (merge (.leaf .bool) (.list (.leaf .bool))) := by
  simp [merge]

end OptionShape

/-! ## Rpcs in another order -/

open OptionShape

def Ast.Rpc.Compatible (rpc other : Ast.Rpc) : Prop :=
  OptionShape.Compatible (ofValue (.map rpc.options)) (ofValue (.map other.options))

theorem unionFrom_perm {known : Table OptionShape} {rpcs others : List Ast.Rpc}
    (hperm : rpcs.Perm others) (hknown : WellFormed (.map known))
    (hsorted : ∀ rpc ∈ rpcs, OptionValue.IsSorted (.map rpc.options))
    (hfirst : ∀ rpc ∈ rpcs,
      OptionShape.Compatible (.map known) (ofValue (.map rpc.options)))
    (hcompatible : rpcs.Pairwise Ast.Rpc.Compatible) :
    unionFrom known rpcs = unionFrom known others := by
  induction hperm generalizing known with
  | nil => rfl
  | @cons rpc rest _ _ ih =>
      obtain ⟨hrpc, hrest⟩ := List.pairwise_cons.mp hcompatible
      rw [unionFrom_cons, unionFrom_cons]
      apply ih
      · exact hknown.merge (wellFormed_ofValue (hsorted rpc (by simp)))
      · exact fun other hother => hsorted other (by simp [hother])
      · exact fun other hother => (hfirst other (by simp [hother])).merge (hrpc other hother)
      · exact hrest
  | swap first second rest =>
      have hpair : Ast.Rpc.Compatible second first :=
        (List.pairwise_cons.mp hcompatible).1 first (by simp)
      have hsecond := (wellFormed_ofValue (hsorted second (by simp))).isSorted
      have hsorted' := (wellFormed_ofValue (hsorted first (by simp))).isSorted
      have hswap := (hfirst second (by simp)).merge_right_comm (hfirst first (by simp)) hpair
        hknown.isSorted hsecond hsorted'
      simp only [ofValue_map, merge_map_map, OptionShape.map.injEq] at hswap
      simp only [unionFrom_cons, hswap]
  | trans hperm _ ih ih' =>
      rw [ih hknown hsorted hfirst hcompatible]
      apply ih' hknown
      · exact fun rpc hrpc => hsorted rpc (hperm.mem_iff.mpr hrpc)
      · exact fun rpc hrpc => hfirst rpc (hperm.mem_iff.mpr hrpc)
      · exact hcompatible.perm hperm fun h => h.symm fun _ _ => Eq.symm

theorem unionShapes_perm {rpcs others : List Ast.Rpc} (hperm : rpcs.Perm others)
    (hsorted : ∀ rpc ∈ rpcs, OptionValue.IsSorted (.map rpc.options))
    (hcompatible : rpcs.Pairwise Ast.Rpc.Compatible) :
    unionShapes rpcs = unionShapes others :=
  unionFrom_perm hperm (.map Table.isSorted_nil (by simp) fun _ => .unknown) hsorted
    (fun _ _ => .map (by simp)) hcompatible

/-- Where rpcs do not conflict their order decides nothing but the order of the result: the union
is the same, and so are the options of the service and those that each rpc gets.  Merging is
commutative and associative on compatible shapes, and in general it is neither. -/
theorem normalizeService_perm (service : Ast.Service) (rpcs : List Ast.Rpc)
    (hperm : service.rpcs.Perm rpcs)
    (hsorted : ∀ rpc ∈ service.rpcs, OptionValue.IsSorted (.map rpc.options))
    (hcompatible : service.rpcs.Pairwise Ast.Rpc.Compatible) :
    unionShapes rpcs = unionShapes service.rpcs ∧
      (normalizeService { service with rpcs }).options = (normalizeService service).options ∧
      (∃ normal : Ast.Rpc → Ast.Rpc,
        (normalizeService service).rpcs = service.rpcs.map normal ∧
        (normalizeService { service with rpcs }).rpcs = rpcs.map normal) ∧
      (∀ left right, OptionShape.IsSorted left → OptionShape.IsSorted right →
        OptionShape.Compatible left right → merge left right = merge right left) ∧
      (∀ left middle right, OptionShape.IsSorted left → OptionShape.IsSorted middle →
        OptionShape.IsSorted right → OptionShape.Compatible left middle →
        OptionShape.Compatible middle right → OptionShape.Compatible left right →
        merge (merge left middle) right = merge left (merge middle right)) ∧
      (∃ left right, OptionShape.IsSorted left ∧ OptionShape.IsSorted right ∧
        merge left right ≠ merge right left) ∧
      ∃ left middle right, OptionShape.IsSorted left ∧ OptionShape.IsSorted middle ∧
        OptionShape.IsSorted right ∧
        merge (merge left middle) right ≠ merge left (merge middle right) := by
  have hunion := unionShapes_perm hperm hsorted hcompatible
  refine ⟨hunion.symm, ?_, ⟨fillRpc (unionShapes service.rpcs), rfl, ?_⟩, ?_, ?_, ?_, ?_⟩
  · simp only [normalizeService, hunion]
  · simp only [normalizeService, hunion]
  · exact fun _ _ hleft hright h => h.merge_comm hleft hright
  · exact fun _ _ _ hsorted _ _ hleft hright _ => hleft.merge_assoc hright hsorted
  · exact ⟨_, _, .leaf _, .leaf _, merge_not_comm⟩
  · exact ⟨_, _, _, .list .unknown, .leaf _, .list (.leaf _), merge_not_assoc⟩

def agreeingService : Ast.Service :=
  let rpc (name : String) (options : OptionMap) : Ast.Rpc :=
    { name, input := "Request", output := "Response"
      inputFullName := "demo.Request", outputFullName := "demo.Response"
      clientStreaming := false, serverStreaming := false, options
      service := "Users" }
  { name := "Users", fullName := "demo.Users", options := []
    codeGeneration := [], file := 0
    rpcs := [
      rpc "First" [("Mode", .scalar (.string "fast")), ("Rules", .list [])],
      rpc "Second" [("Rules", .list [.map [("A", .scalar (.int 1))]])],
      rpc "Third" [("Mode", .scalar (.string "slow")),
        ("Rules", .list [.map [("B", .list [.scalar (.uint 2)])]])]] }

theorem agreeingService_isSorted :
    ∀ rpc ∈ agreeingService.rpcs, OptionValue.IsSorted (.map rpc.options) := by
  simp only [agreeingService, List.forall_mem_cons, List.not_mem_nil, false_implies,
    implies_true, and_true, OptionValue.isSorted_map_iff, OptionValue.isSorted_list_iff,
    OptionValue.IsSorted.scalar]
  decide

theorem agreeingService_compatible : agreeingService.rpcs.Pairwise Ast.Rpc.Compatible := by
  have hempty (item : OptionShape) : Matches Eq (.list .unknown) (.list item) :=
    .list (.unknownLeft _)
  have hitems : Matches Eq (.list (.map [("A", .leaf .int)]))
      (.list (.map [("B", .list (.leaf .uint))])) :=
    .list (.map (by simp +contextual [Table.get?_cons]))
  simp only [agreeingService, List.pairwise_cons, List.forall_mem_cons, List.not_mem_nil,
    false_implies, implies_true, and_true, List.Pairwise.nil, Ast.Rpc.Compatible, ofValue_map]
  refine ⟨⟨.map ?_, .map ?_⟩, .map ?_⟩
  all_goals
    intro key shape other hl hr
    simp only [ofEntries, ofValue, ofItems, Scalar.type, merge, Table.get?_cons,
      Table.get?_nil] at hl hr
    grind [Matches]

theorem normalizeService_perm_agreeing :
    (∀ rpc ∈ agreeingService.rpcs, OptionValue.IsSorted (.map rpc.options)) ∧
      agreeingService.rpcs.Pairwise Ast.Rpc.Compatible ∧
      unionShapes agreeingService.rpcs.reverse = unionShapes agreeingService.rpcs ∧
      (normalizeService { agreeingService with rpcs := agreeingService.rpcs.reverse }).options =
        (normalizeService agreeingService).options := by
  obtain ⟨hunion, hoptions, -⟩ := normalizeService_perm agreeingService
    agreeingService.rpcs.reverse (List.reverse_perm _).symm agreeingService_isSorted
    agreeingService_compatible
  exact ⟨agreeingService_isSorted, agreeingService_compatible, hunion, hoptions⟩

end SchemaGo
