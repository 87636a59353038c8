import LineageLoad.Size

/-!
Everything that a store shows through its reads, in full and as a summary that does not depend on
ids.
-/

namespace LineageLoad

/-- What a store shows. Links are pairs of a context and a node. -/
structure Snapshot where
  types : PerKind (List EntityType)
  nodes : PerKind (List Node)
  events : List Event
  attributions : List (EntityId × EntityId)
  associations : List (EntityId × EntityId)
  deriving Inhabited

/-- The links of the given contexts, by asking for the nodes of each one in turn. -/
def linksOfContexts {σ : Type} (contexts : List EntityId)
    (nodesOf : EntityId → ExceptT StoreError (StateM σ) (List Node))
    : ExceptT StoreError (StateM σ) (List (EntityId × EntityId)) :=
  contexts.flatMapM fun context => do
    let nodes ← nodesOf context
    return nodes.filterMap fun node => node.id.map (context, ·)

/-- Reads everything: types, nodes, events of all artifacts, links of all contexts. -/
def Store.snapshot {σ : Type} (store : Store σ) : ExceptT StoreError (StateM σ) Snapshot := do
  let artifactTypes ← store.ask (.getTypes .artifact)
  let executionTypes ← store.ask (.getTypes .execution)
  let contextTypes ← store.ask (.getTypes .context)
  let artifacts ← store.ask (.getNodes .artifact)
  let executions ← store.ask (.getNodes .execution)
  let contexts ← store.ask (.getNodes .context)
  let events ← store.ask (.getEventsByArtifactIds (artifacts.filterMap (·.id)))
  let ids := contexts.filterMap (·.id)
  let attributions ← linksOfContexts ids fun id => store.ask (.getArtifactsByContext id)
  let associations ← linksOfContexts ids fun id => store.ask (.getExecutionsByContext id)
  return {
    types := ⟨artifactTypes, executionTypes, contextTypes⟩
    nodes := ⟨artifacts, executions, contexts⟩
    events, attributions, associations }

namespace Snapshot

def sortedTypes (types : List EntityType) : List EntityType :=
  types.mergeSort fun a b => a.name ≤ b.name

/-- Nodes in ascending order of the names of their types, then of their own names, those without
a name first; nodes that agree in both keep their order.
-/
def sortedNodes (nodes : List Node) : List Node :=
  let notAfter (a b : Node) : Bool :=
    match compare a.typeName b.typeName with
    | .lt => true
    | .gt => false
    | .eq =>
      match a.name, b.name with
      | none, _ => true
      | some _, none => false
      | some x, some y => x ≤ y
  nodes.mergeSort notAfter

/-- Events in ascending order of their artifacts, then executions, inputs first. -/
def sortedEvents (events : List Event) : List Event :=
  let position (event : Event) : Nat := Direction.all.idxOf event.direction
  events.mergeSort fun a b =>
    ((compare a.artifact b.artifact).then
      ((compare a.execution b.execution).then (compare (position a) (position b)))).isLE

end Snapshot

end LineageLoad
