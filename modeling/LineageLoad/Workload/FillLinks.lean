import LineageLoad.Workload.Existing
import LineageLoad.Workload.Load

/-!
Load that links nodes to contexts. Every link is new: neither stored nor generated before.
-/

namespace LineageLoad
namespace FillLinks

variable {σ γ : Type} [WordSource γ]

/-- Pairs of a node and a context. -/
abbrev PairSet := Std.ExtTreeSet (EntityId × EntityId) pairOrder

def linkedNodes (link : LinkKind) (store : Store σ) (context : EntityId) : BenchM σ (List Node) :=
  match link with
  | .attribution => store.request (.getArtifactsByContext context)
  | .association => store.request (.getExecutionsByContext context)

/-- The stored pairs of the given contexts, added to (known). -/
def storedPairs (link : LinkKind) (store : Store σ)
    : (contexts : List EntityId) → (known : PairSet) → BenchM σ PairSet
  | [], known => return known
  | context :: rest, known => do
    let nodes ← linkedNodes link store context
    storedPairs link store rest
      (known.insertMany (nodes.filterMap fun node => node.id.map (·, context)))

/-- Draws pairs until one is not known, and gives up after as many known ones in a row as the budget
allows.
-/
def drawUnknown (nodes contexts : List EntityId) (known : PairSet)
    : (budget : Nat) → DrawM γ (Option (EntityId × EntityId))
  | 0 => return none
  | budget + 1 => do
    let node ← DrawM.choose nodes
    let context ← DrawM.choose contexts
    if known.contains (node, context) then drawUnknown nodes contexts known budget
    else return some (node, context)

def item (link : LinkKind) (node context : EntityId) : WorkItem :=
  match link with
  | .attribution => ⟨.putLinks [⟨node, context⟩] [], Link.bytes⟩
  | .association => ⟨.putLinks [] [⟨node, context⟩], Link.bytes⟩

/-- Items for links that are not known, each of which is known afterwards. -/
def newItems (link : LinkKind) (nodes contexts : List EntityId) (budget : Nat)
    : (count : Nat) → (known : PairSet) → DrawM γ (List WorkItem)
  | 0, _ => return []
  | count + 1, known => do
    let some (node, context) ← drawUnknown nodes contexts known budget
      | throw (.noFreePairDrawn link.nodeKind budget)
    let rest ← newItems link nodes contexts budget count (known.insert (node, context))
    return item link node context :: rest

/-- The number of known pairs that may be drawn in a row. It is so large that in practice an unknown
pair, if there is one, is drawn long before.
-/
def patience (nodes contexts : List EntityId) : Nat :=
  rejectionBudget * (nodes.length * contexts.length)

/-- Draws as many unknown pairs as operations, if there are enough. The product of the lengths is
taken as not overflowing a machine word.
-/
def inserts (link : LinkKind) (store : Store σ) (count : Nat) : PrepareM σ γ (List WorkItem) := do
  let nodes ← PrepareM.onStore (store.existingNodes link.nodeKind)
  let contexts ← PrepareM.onStore (store.existingNodes .context)
  let nodes := nodes.filterMap (·.id)
  let contexts := contexts.filterMap (·.id)
  let known ← PrepareM.onStore (storedPairs link store contexts ∅)
  let free := nodes.length * contexts.length - known.size
  if free < count then throw (.tooFewFreePairs link.nodeKind free count)
  PrepareM.onSource (newItems link nodes contexts (patience nodes contexts) count known)

end FillLinks
end LineageLoad
