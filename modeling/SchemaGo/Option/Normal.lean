import SchemaGo.Ast.Basic
import SchemaGo.Option.Shape

/-!
# Normal services

Templates go through the rpcs of a service and look into their options, so every rpc must have the
same keys.  The union of the shapes of all rpcs is kept on the service, and each rpc is filled with
zeros against it.
-/

namespace SchemaGo

def rpcOptionsKey : String := "RpcOptions"

/-- The union of the option shapes of all rpcs; the first shape of a key wins on conflicts. -/
def unionShapes (rpcs : List Ast.Rpc) : Table OptionShape :=
  rpcs.foldl (fun union rpc => OptionShape.mergeTables union (OptionShape.ofEntries rpc.options)) []

def fillRpc (union : Table OptionShape) (rpc : Ast.Rpc) : Ast.Rpc :=
  { rpc with options := OptionShape.fillEntries union rpc.options }

def normalizeService (service : Ast.Service) : Ast.Service :=
  let union := unionShapes service.rpcs
  { service with
    rpcs := service.rpcs.map (fillRpc union)
    options := Table.insert rpcOptionsKey (OptionShape.map union).describe service.options }

end SchemaGo
