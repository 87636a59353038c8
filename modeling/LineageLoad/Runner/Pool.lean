import LineageLoad.Store.Server
import LineageLoad.Stats.ThreadStats
import LineageLoad.Workload.Lifecycle

/-!
The worker threads of one workload as a machine. A move lets one worker take one step; which moves
come in which order is left open, so the runs of the machine are all interleavings of the workers.
-/

namespace LineageLoad

/-- How a run is executed: where connections lead to, how many workers there are, and how many
attempts an operation has; without a limit it is retried for ever.
-/
structure ThreadRunner where
  connection : ConnectionConfig
  numThreads : Nat
  maxAttempts : Option Nat
  deriving Repr, Inhabited

/-- Where a worker stands. -/
inductive WorkerStatus where
  /-- It has not opened its connection yet. -/
  | waiting
  | working (connection : Connection)
  | finished
  | failed (error : BenchError)
  deriving DecidableEq, Inhabited

/-- A worker, which executes the operations from (next) to (stop) in order. -/
structure Worker where
  next : Nat
  stop : Nat
  /-- The number of failed attempts at the next operation. -/
  attempts : Nat := 0
  stats : ThreadStats := .new
  status : WorkerStatus := .waiting
  deriving Inhabited

namespace Worker

def hasEnded (worker : Worker) : Bool :=
  match worker.status with
  | .finished => true
  | .failed _ => true
  | _ => false

/-- What a worker hands over when it has ended. -/
def result? (worker : Worker) : Option (Except BenchError ThreadStats) :=
  match worker.status with
  | .finished => some (.ok worker.stats)
  | .failed error => some (.error error)
  | _ => none

/-- The worker after an attempt at its next operation of the named workload. All workers together
have completed (totalDone) operations then.
-/
def settle (worker : Worker) (maxAttempts : Option Nat) (workload : String) (outcome : Outcome)
    (totalDone : Nat) (now : Instant) : Worker :=
  match outcome with
  | .succeeded op =>
    { worker with
      next := worker.next + 1, attempts := 0, stats := worker.stats.update op totalDone }
  | .failed error =>
    let stats := worker.stats.recordFailure
    let attempts := worker.attempts + 1
    if maxAttempts.any (· ≤ attempts) then
      { worker with
        attempts, stats := stats.stopAt now
        status := .failed (.retriesExhausted workload worker.next attempts error) }
    else { worker with attempts, stats }
  | .panicked => { worker with status := .failed (.workerPanicked workload) }

end Worker

/-- One attempt that was made. -/
structure Attempt where
  worker : Nat
  index : Nat
  outcome : Outcome
  /-- The number of operations that all workers had completed after it. -/
  totalDone : Nat
  deriving DecidableEq, Inhabited

/-- Lets a worker take a step at a time; if it executes an operation, the store takes (elapsed)
nanoseconds for it.
-/
structure Move where
  worker : Nat
  now : Instant := 0
  elapsed : Nat := 0
  deriving DecidableEq, Repr, Inhabited

/-- All workers of a workload, and what they share. -/
structure Pool (ω : Type) where
  workload : ω
  server : Server
  workers : List Worker
  /-- The number of operations completed by all workers. -/
  totalDone : Nat := 0
  /-- All attempts that were made, the last one first. -/
  attempts : List Attempt := []
  deriving Inhabited

namespace Pool

variable {ω : Type} [Workload ω]

def setWorker (pool : Pool ω) (position : Nat) (worker : Worker) : Pool ω :=
  { pool with workers := pool.workers.set position worker }

def attempt (runner : ThreadRunner) (pool : Pool ω) (move : Move) (worker : Worker)
    (connection : Connection) : Pool ω :=
  let (outcome, workload, server) := Workload.execute pool.workload worker.next move.elapsed
    (Server.store connection) pool.server
  let totalDone := match outcome with
    | .succeeded _ => pool.totalDone + 1
    | _ => pool.totalDone
  let name := Workload.name pool.workload
  { pool with
    workload, server, totalDone
    workers := pool.workers.set move.worker
      (worker.settle runner.maxAttempts name outcome totalDone move.now)
    attempts := ⟨move.worker, worker.next, outcome, totalDone⟩ :: pool.attempts }

/-- Lets a worker take a step: it opens its connection, attempts an operation or finishes. A worker
that has ended stays as it is.
-/
def step (runner : ThreadRunner) (pool : Pool ω) (move : Move) : Pool ω :=
  match pool.workers[move.worker]? with
  | none => pool
  | some worker =>
    match worker.status with
    | .waiting =>
      let (connection, server) := pool.server.connect runner.connection
      { pool with server }.setWorker move.worker
        { worker with stats := worker.stats.startAt move.now, status := .working connection }
    | .working connection =>
      if worker.next < worker.stop then pool.attempt runner move worker connection
      else pool.setWorker move.worker
        { worker with stats := worker.stats.stopAt move.now, status := .finished }
    | .finished => pool
    | .failed _ => pool

def run (runner : ThreadRunner) (pool : Pool ω) (moves : List Move) : Pool ω :=
  moves.foldl (step runner) pool

def hasEnded (pool : Pool ω) : Bool := pool.workers.all (·.hasEnded)

def nextWorker? (pool : Pool ω) : Option Nat := pool.workers.findIdx? (!·.hasEnded)

/-- Lets one worker after the other go to its end, without any time going by. -/
def runInTurn (runner : ThreadRunner) : (budget : Nat) → Pool ω → Pool ω
  | 0, pool => pool
  | budget + 1, pool =>
    match pool.nextWorker? with
    | none => pool
    | some worker => runInTurn runner budget (pool.step runner { worker })

/-- Merges what the workers hand over, in their order; the first failure comes before all later
ones. There is nothing if a worker has not ended.
-/
def merge (stats : ThreadStats) : List Worker → Option (Except BenchError ThreadStats)
  | [] => some (.ok stats)
  | worker :: rest =>
    match worker.result? with
    | none => none
    | some (.error error) => some (.error error)
    | some (.ok other) => merge (stats.merge other) rest

/-- What the pool hands over when all workers have ended. -/
def result? (pool : Pool ω) : Option (Except BenchError ThreadStats) :=
  if pool.hasEnded then merge .new pool.workers else none

end Pool

end LineageLoad
