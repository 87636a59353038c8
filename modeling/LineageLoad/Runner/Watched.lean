import LineageLoad.Runner.Run

/-!
Runs that are watched: workloads keep a record of what they are asked for, and what is told to the
one who waits for reports is kept too.
-/

namespace LineageLoad

/-- What a workload is asked for. -/
inductive LifeStep where
  | prepared (succeeded : Bool)
  | executed (index : Nat)
  | tornDown
  deriving DecidableEq, Repr, Inhabited

/-- A workload that keeps a record of what it is asked for. -/
structure Watched (ω : Type) where
  inner : ω
  record : List LifeStep := []
  deriving Inhabited

instance {ω : Type} [Workload ω] : Workload (Watched ω) where
  name watched := Workload.name watched.inner
  numOperations watched := Workload.numOperations watched.inner
  numItems watched := Workload.numItems watched.inner
  prepare watched store state :=
    let (result, inner, state) := Workload.prepare watched.inner store state
    (result, ⟨inner, watched.record ++ [.prepared result.1.isOk]⟩, state)
  execute watched index elapsed store state :=
    let (outcome, inner, state) := Workload.execute watched.inner index elapsed store state
    (outcome, ⟨inner, watched.record ++ [.executed index]⟩, state)
  teardown watched := ⟨Workload.teardown watched.inner, watched.record ++ [.tornDown]⟩

/-- Runs all workloads and keeps the reports that are handed on, in their order; the schedule gives
the moves of the workers at each position.
-/
def ThreadRunner.runListening {ω : Type} [Workload ω] (runner : ThreadRunner)
    (schedule : Nat → List Move) (workloads : List (ω × Nat)) (state : RunState)
    : ((List Report × Option (Except BenchError Unit)) × List (ω × Nat) × RunState)
      × List Report :=
  (runner.runAll (m := StateM (List Report))
    (fun position pool => pure (pool.run runner (schedule position)))
    (fun report => modify (· ++ [report])) 0 workloads state).run []

end LineageLoad
