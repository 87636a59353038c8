import LineageLoad.Workload.Existing
import LineageLoad.Workload.Load

/-!
Load that reads what belongs to a random node: the nodes it is linked to, or its events. What a node
has is measured when it is drawn for the first time.
-/

namespace LineageLoad
namespace ReadLinked

variable {σ γ : Type} [WordSource γ]

/-- The call that reads the nodes linked to a node. -/
def linkCall : LinkRead → (id : EntityId) → Call
  | .artifactsByContext, id => .getArtifactsByContext id
  | .executionsByContext, id => .getExecutionsByContext id
  | .contextsByArtifact, id => .getContextsByArtifact id
  | .contextsByExecution, id => .getContextsByExecution id

/-- The call that reads the events of a node. -/
def eventCall : EventRead → (id : EntityId) → Call
  | .byArtifact, id => .getEventsByArtifactIds [id]
  | .byExecution, id => .getEventsByExecutionIds [id]

/-- Issues a call and measures what it reads. -/
def measure (store : Store σ) (call : Call) : BenchM σ Nat :=
  return call.replyBytes (← store.request call)

/-- Items that issue the call of one of the given ids each; (sizes) holds what is measured. -/
def items (store : Store σ) (call : EntityId → Call) (ids : List EntityId)
    : (count : Nat) → (sizes : List (EntityId × Nat)) → PrepareM σ γ (List WorkItem)
  | 0, _ => return []
  | count + 1, sizes => do
    let id ← PrepareM.onSource (DrawM.choose ids)
    let bytes ← match sizes.lookup id with
      | some bytes => pure bytes
      | none => PrepareM.onStore (measure store (call id))
    let rest ← items store call ids count ((id, bytes) :: sizes)
    return ⟨call id, bytes⟩ :: rest

/-- Synthesizes reads that start from the nodes of a kind; without any it fails for (nothing). -/
def reads (kind : Kind) (nothing : BenchError) (call : EntityId → Call) (store : Store σ)
    (count : Nat) : PrepareM σ γ (List WorkItem) := do
  let nodes ← PrepareM.onStore (store.existingNodes kind)
  let ids := nodes.filterMap (·.id)
  if ids.isEmpty then throw nothing
  items store call ids count []

end ReadLinked
end LineageLoad
