import LineageLoad.Workload.Lifecycle

/-!
Workloads that follow a script: whether they can be prepared, and how each attempt at each operation
ends, is given beforehand.
-/

namespace LineageLoad

/-- A workload that follows a script. -/
structure ScriptedWorkload where
  name : String
  numOperations : Nat
  /-- Why the preparation fails, if it does. -/
  refusal : Option String
  /-- How an attempt at an operation ends; attempts at each operation count from 1. -/
  outcome : (index attempt : Nat) → Outcome
  /-- The operations that were attempted, the last one first. -/
  tried : List Nat := []
  isPrepared : Bool := false

instance : Workload ScriptedWorkload where
  name := ScriptedWorkload.name
  numOperations := ScriptedWorkload.numOperations
  numItems workload := if workload.isPrepared then workload.numOperations else 0
  prepare workload _ state :=
    match workload.refusal with
    | some reason => ((.error (.refusedPreparation reason), []), workload, state)
    | none => ((.ok (), []), { workload with isPrepared := true }, state)
  execute workload index _ _ state :=
    let attempt := workload.tried.count index + 1
    (workload.outcome index attempt, { workload with tried := index :: workload.tried }, state)
  teardown workload := { workload with isPrepared := false }

end LineageLoad
