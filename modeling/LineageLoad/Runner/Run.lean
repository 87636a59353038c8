import LineageLoad.Runner.Pool

/-!
Runs: each workload in turn is prepared, executed by a pool of workers, torn down and reported. The
first failure ends a run.
-/

namespace LineageLoad

/-- What happens to a workload in a run. -/
inductive RunEvent where
  | prepare (succeeded : Bool)
  | attempt (made : Attempt)
  | teardown
  | report (report : Report)
  deriving DecidableEq, Inhabited

/-- What a run leaves behind. -/
structure RunState where
  server : Server
  notes : List Note := []
  /-- What happened, each with the position of its workload. -/
  events : List (Nat × RunEvent) := []
  deriving Inhabited

/-- The settings of the worker threads. -/
structure ThreadEnvConfig where
  numThreads : Nat := 1
  maxAttempts : Option Nat := some 10
  deriving DecidableEq, Repr, Inhabited

namespace ThreadRunner

/-- A runner needs a thread, and an attempt for each operation. -/
def new? (connection : ConnectionConfig) (config : ThreadEnvConfig)
    : Except BenchError ThreadRunner :=
  if config.numThreads = 0 then .error .noThreads
  else if config.maxAttempts = some 0 then .error .noAttempts
  else .ok ⟨connection, config.numThreads, config.maxAttempts⟩

variable {ω : Type} [Workload ω]

def opsPerThread (runner : ThreadRunner) (numOperations : Nat) : Nat :=
  numOperations / runner.numThreads

/-- The workers, each with the part of the operations that follows the ones before it. -/
def workers (runner : ThreadRunner) (numOperations : Nat) : List Worker :=
  let share := runner.opsPerThread numOperations
  (List.range runner.numThreads).map fun worker =>
    { next := worker * share, stop := (worker + 1) * share }

/-- A number of moves within which all workers end, if there is a limit to attempts. -/
def moveBudget (runner : ThreadRunner) (numOperations : Nat) : Nat :=
  match runner.maxAttempts with
  | none => 1 <<< 62
  | some limit => runner.numThreads * (runner.opsPerThread numOperations * limit + 2)

/-- Prepares a workload on a connection of its own and, if that succeeds, makes its pool. -/
def start (runner : ThreadRunner) (workload : ω) (numOperations : Nat) (server : Server)
    : (Except BenchError Unit × List Note) × Pool ω :=
  let (connection, server) := server.connect runner.connection
  let (result, workload, server) := Workload.prepare workload (Server.store connection) server
  (result, { workload, server, workers := runner.workers numOperations })

variable {m : Type → Type} [Monad m]

/-- Runs one workload: (drive) takes its pool from the start to the end. There is no result if the
pool is left before its end.
-/
def runWorkload (runner : ThreadRunner) (drive : Pool ω → m (Pool ω)) (position : Nat)
    (workload : ω) (numOperations : Nat) (state : RunState)
    : m (Option (Except BenchError Report) × ω × RunState) := do
  let name := Workload.name workload
  let ((prepared, notes), pool) := runner.start workload numOperations state.server
  let begun := state.notes ++ .runningWorkload name numOperations runner.numThreads :: notes
  match prepared with
  | .error error =>
    return (some (.error error), pool.workload,
      { server := pool.server, notes := begun
        events := state.events ++ [(position, .prepare false)] })
  | .ok () =>
    let skipped := numOperations % runner.numThreads
    let begun := if 0 < skipped then begun ++ [.skippingRemainder name skipped] else begun
    let pool ← drive pool
    let events := state.events ++ (position, .prepare true)
      :: pool.attempts.reverse.map (position, .attempt ·) ++ [(position, .teardown)]
    let workload := Workload.teardown pool.workload
    match pool.result? with
    | some (.ok stats) =>
      let report := stats.report name
      let finished := begun ++ [.workloadFinished name report.operations report.failures]
      return (some (.ok report), workload, { server := pool.server, notes := finished, events })
    | some (.error error) =>
      return (some (.error error), workload, { server := pool.server, notes := begun, events })
    | none => return (none, workload, { server := pool.server, notes := begun, events })

/-- Runs workloads in order and hands each report on as soon as its workload has finished. Answers
the reports and the first failure, and the workloads as they are afterwards.
-/
def runAll (runner : ThreadRunner) (drive : Nat → Pool ω → m (Pool ω))
    (onReport : Report → m Unit) (position : Nat)
    : List (ω × Nat) → RunState
      → m ((List Report × Option (Except BenchError Unit)) × List (ω × Nat) × RunState)
  | [], state => return (([], some (.ok ())), [], state)
  | (workload, numOperations) :: rest, state => do
    let (result, workload, state) ←
      runner.runWorkload (drive position) position workload numOperations state
    match result with
    | some (.ok report) =>
      onReport report
      let state := { state with events := state.events ++ [(position, .report report)] }
      let ((reports, ending), rest, state) ← runAll runner drive onReport (position + 1) rest state
      return ((report :: reports, ending), (workload, numOperations) :: rest, state)
    | some (.error error) =>
      return (([], some (.error error)), (workload, numOperations) :: rest, state)
    | none => return (([], none), (workload, numOperations) :: rest, state)

/-- Takes a pool to its end by one worker after the other. -/
def inTurn (runner : ThreadRunner) (numOperations : Nat) (pool : Pool ω) : Id (Pool ω) :=
  pool.runInTurn runner (runner.moveBudget numOperations)

end ThreadRunner

end LineageLoad
