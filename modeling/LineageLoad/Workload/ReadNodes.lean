import LineageLoad.Workload.Existing
import LineageLoad.Workload.Load

/-!
Load that reads a node by id, all nodes of a type, or a node by type and name.
-/

namespace LineageLoad
namespace ReadNodes

variable {σ γ : Type} [WordSource γ]

def pick (kind : Kind) (nodes : List Node) : DrawM γ Node :=
  if nodes.isEmpty then throw (.noNodesToRead kind) else DrawM.choose nodes

/-- Items that read a node by id each. -/
def itemsById (kind : Kind) (nodes : List Node) : (count : Nat) → DrawM γ (List WorkItem)
  | 0 => return []
  | count + 1 => do
    let node ← pick kind nodes
    let some id := node.id | throw (.nodeWithoutId kind)
    let rest ← itemsById kind nodes count
    return ⟨.getNodesById kind [id], node.bytes⟩ :: rest

/-- The size of all nodes whose type has a name. -/
def bytesOfType (nodes : List Node) (typeName : String) : Nat :=
  sumOf (·.bytes) (nodes.filter (·.typeName == typeName))

/-- Items that read all nodes of a type each. -/
def itemsByType (kind : Kind) (nodes : List Node) (types : List EntityType)
    : (count : Nat) → DrawM γ (List WorkItem)
  | 0 => return []
  | count + 1 => do
    let type ← DrawM.choose types
    let rest ← itemsByType kind nodes types count
    return ⟨.getNodesByType kind type.name, bytesOfType nodes type.name⟩ :: rest

/-- Items that read a node by type and name each; all given nodes have a name. -/
def itemsByName (kind : Kind) (named : List Node) : (count : Nat) → DrawM γ (List WorkItem)
  | 0 => return []
  | count + 1 => do
    let node ← pick kind named
    let rest ← itemsByName kind named count
    return ⟨.getNodeByTypeAndName kind node.typeName (node.name.getD ""), node.bytes⟩ :: rest

def reads (kind : Kind) (read : NodeRead) (store : Store σ) (count : Nat)
    : PrepareM σ γ (List WorkItem) := do
  let nodes ← PrepareM.onStore (store.existingNodes kind)
  match read with
  | .byId => PrepareM.onSource (itemsById kind nodes count)
  | .byType =>
    let types ← PrepareM.onStore (store.existingTypes kind)
    if types.isEmpty then throw (.noTypesToReadNodesOf kind)
    PrepareM.onSource (itemsByType kind nodes types count)
  | .byTypeAndName =>
    PrepareM.onSource (itemsByName kind (nodes.filter (·.name.isSome)) count)

end ReadNodes
end LineageLoad
