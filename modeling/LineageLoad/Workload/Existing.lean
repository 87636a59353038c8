import LineageLoad.Workload.Prepare

/-!
What a store holds when load is synthesized.
-/

namespace LineageLoad

/-- All types of a kind in a store. -/
def Store.existingTypes {σ : Type} (store : Store σ) (kind : Kind) : BenchM σ (List EntityType) :=
  store.request (.getTypes kind)

/-- All nodes of a kind in a store. -/
def Store.existingNodes {σ : Type} (store : Store σ) (kind : Kind) : BenchM σ (List Node) :=
  store.request (.getNodes kind)

/-- The number of types of all kinds in a store. -/
def Store.totalTypes {σ : Type} (store : Store σ) : BenchM σ Nat := do
  let artifacts ← store.existingTypes .artifact
  let executions ← store.existingTypes .execution
  let contexts ← store.existingTypes .context
  return artifacts.length + executions.length + contexts.length

end LineageLoad
