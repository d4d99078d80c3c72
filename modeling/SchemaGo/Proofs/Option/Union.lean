import SchemaGo.Option.Normal
import SchemaGo.Proofs.Option.Alike
import SchemaGo.Proofs.Option.Filling

/-!
# The union of the shapes of rpcs

The union grows from rpc to rpc in the information order, so it is above all
that any prefix of the rpcs has shown.
-/

namespace SchemaGo

open OptionShape

/-- What is known after some rpcs, if `known` is known before them. -/
def unionFrom (known : Table OptionShape) (rpcs : List Ast.Rpc) :
    Table OptionShape :=
  rpcs.foldl (fun union rpc => mergeTables union (ofEntries rpc.options)) known

@[simp] theorem unionFrom_cons (known : Table OptionShape) (rpc : Ast.Rpc)
    (rpcs : List Ast.Rpc) :
    unionFrom known (rpc :: rpcs) =
      unionFrom (mergeTables known (ofEntries rpc.options)) rpcs := rfl

theorem below_unionFrom (known : Table OptionShape) (rpcs : List Ast.Rpc) :
    Below (.map known) (.map (unionFrom known rpcs)) := by
  induction rpcs generalizing known with
  | nil => exact .refl _
  | cons rpc rest ih =>
      exact (below_merge_left (.map known) (.map (ofEntries rpc.options))).trans
        (ih _)

theorem wellFormed_unionFrom {known : Table OptionShape} {rpcs : List Ast.Rpc}
    (hknown : WellFormed (.map known))
    (hsorted : ∀ rpc ∈ rpcs, OptionValue.IsSorted (.map rpc.options)) :
    WellFormed (.map (unionFrom known rpcs)) := by
  induction rpcs generalizing known with
  | nil => exact hknown
  | cons rpc rest ih =>
      apply ih
      · exact hknown.merge (wellFormed_ofValue (hsorted rpc (by simp)))
      · exact fun other hother => hsorted other (by simp [hother])

theorem wellFormed_unionShapes {rpcs : List Ast.Rpc}
    (hsorted : ∀ rpc ∈ rpcs, OptionValue.IsSorted (.map rpc.options)) :
    WellFormed (.map (unionShapes rpcs)) :=
  wellFormed_unionFrom
    (.map Table.isSorted_nil (by simp) fun _ => .unknown) hsorted

theorem isSorted_fillRpc {bound : Table OptionShape} {rpc : Ast.Rpc}
    (hbound : WellFormed (.map bound))
    (hrpc : OptionValue.IsSorted (.map rpc.options)) :
    OptionValue.IsSorted (.map (fillRpc bound rpc).options) :=
  isSorted_fill hbound hrpc

theorem fillRpc_fillRpc {bound : Table OptionShape} {rpc : Ast.Rpc}
    (hbound : WellFormed (.map bound))
    (hrpc : OptionValue.IsSorted (.map rpc.options)) :
    fillRpc bound (fillRpc bound rpc) = fillRpc bound rpc := by
  have hfill := OptionValue.map.inj (fill_fill hbound hrpc)
  simp only [fillRpc, hfill]

/-! ## Rpcs that disagree -/

def clashingService : Ast.Service :=
  let rpc (name : String) (options : OptionMap) : Ast.Rpc :=
    { name, input := "Request", output := "Response"
      inputFullName := "demo.Request", outputFullName := "demo.Response"
      clientStreaming := false, serverStreaming := false, options
      service := "Users" }
  { name := "Users", fullName := "demo.Users", options := []
    codeGeneration := [], file := 0
    rpcs := [
      rpc "First" [("Mode", .scalar (.string "fast")),
        ("Rules", .list [.map [("A", .scalar (.int 1))]])],
      rpc "Second" [("Mode", .map [("Level", .scalar (.int 2))]),
        ("Rules", .list [.map [("B", .scalar (.uint 2))],
          .map [("A", .map [("C", .scalar (.bool true))])]])]] }

theorem clashingService_isSorted :
    ∀ rpc ∈ clashingService.rpcs, OptionValue.IsSorted (.map rpc.options) := by
  simp only [clashingService, List.forall_mem_cons, List.not_mem_nil,
    false_implies, implies_true, and_true, OptionValue.isSorted_map_iff,
    OptionValue.isSorted_list_iff, OptionValue.IsSorted.scalar]
  decide

theorem clashingService_listsAlike :
    ∀ rpc ∈ clashingService.rpcs, OptionValue.ListsAlike (.map rpc.options) := by
  simp only [clashingService, List.forall_mem_cons, List.not_mem_nil,
    false_implies, implies_true, and_true, true_and, List.pairwise_cons,
    List.Pairwise.nil, OptionValue.listsAlike_map_iff,
    OptionValue.listsAlike_list_iff, OptionValue.ListsAlike.scalar, ofValue_map]
  exact .map (by simp +contextual [ofEntries, Table.get?_cons])

end SchemaGo
