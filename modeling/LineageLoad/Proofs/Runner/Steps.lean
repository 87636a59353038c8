import Mathlib.Data.List.Basic
import LineageLoad.Runner.Run

/-!
What one move does to a pool: nothing, or one of three steps of the worker that moves. All that is
proved of whole runs goes through these cases.
-/

namespace LineageLoad

/-- The three ways in which an attempt ends. -/
inductive Ending where
  | succeeded
  | failed
  | panicked
  deriving DecidableEq, Inhabited

namespace Outcome

/-- The way in which an attempt ended. -/
def ending : Outcome → Ending
  | .succeeded _ => .succeeded
  | .failed _ => .failed
  | .panicked => .panicked

/-- The operation that an attempt completed, if it succeeded. -/
def op? : Outcome → Option OpStats
  | .succeeded op => some op
  | .failed _ => none
  | .panicked => none

end Outcome

namespace Attempt

/-- Whether an attempt succeeded. -/
def hasSucceeded (attempt : Attempt) : Bool := attempt.outcome.ending = .succeeded

/-- Whether an attempt failed without a panic. -/
def hasFailed (attempt : Attempt) : Bool := attempt.outcome.ending = .failed

theorem hasSucceeded_of_hasFailed {attempt : Attempt} (failed : attempt.hasFailed = true)
    : attempt.hasSucceeded = false := by
  have ending : attempt.outcome.ending = .failed := of_decide_eq_true failed
  simp [hasSucceeded, ending]

end Attempt

/-- The attempts that one worker made. -/
def ownAttempts (position : Nat) (log : List Attempt) : List Attempt :=
  log.filter (·.worker = position)

/-- The attempts at one operation. -/
def attemptsAt (index : Nat) (log : List Attempt) : List Attempt := log.filter (·.index = index)

section

variable {position index : Nat} {log : List Attempt} {attempt : Attempt}

theorem ownAttempts_append_own (own : attempt.worker = position)
    : ownAttempts position (log ++ [attempt]) = ownAttempts position log ++ [attempt] := by
  simp [ownAttempts, own]

theorem ownAttempts_append_other (other : attempt.worker ≠ position)
    : ownAttempts position (log ++ [attempt]) = ownAttempts position log := by
  simp [ownAttempts, other]

theorem attemptsAt_append_same (same : attempt.index = index)
    : attemptsAt index (log ++ [attempt]) = attemptsAt index log ++ [attempt] := by
  simp [attemptsAt, same]

theorem attemptsAt_append_other (other : attempt.index ≠ index)
    : attemptsAt index (log ++ [attempt]) = attemptsAt index log := by
  simp [attemptsAt, other]

/-- An attempt at a later operation changes nothing for a range of operations. -/
theorem flatMap_attemptsAt_append {start number : Nat} (later : start + number ≤ attempt.index)
    : (List.range' start number).flatMap (attemptsAt · (log ++ [attempt]))
        = (List.range' start number).flatMap (attemptsAt · log) := by
  refine List.flatMap_congr fun index member => attemptsAt_append_other ?_
  have := (List.mem_range'_1.mp member).2
  omega

/-- A log that consists of the attempts at one operation after the other still does so after an
attempt at the last one.
-/
theorem eq_flatMap_attemptsAt_append {start : Nat} (ordered : start ≤ index)
    (split : log
      = (List.range' start (index - start)).flatMap (attemptsAt · log) ++ attemptsAt index log)
    (same : attempt.index = index)
    : log ++ [attempt]
        = (List.range' start (index + 1 - start)).flatMap (attemptsAt · (log ++ [attempt])) := by
  rw [Nat.sub_add_comm ordered, List.range'_1_concat, List.flatMap_append,
    flatMap_attemptsAt_append (by omega), Nat.add_sub_cancel' ordered, List.flatMap_singleton,
    attemptsAt_append_same same, ← List.append_assoc, ← split]

end

theorem Worker.status_of_hasEnded {worker : Worker} (ended : worker.hasEnded = true)
    : worker.status = .finished ∨ ∃ error, worker.status = .failed error := by
  cases status : worker.status with
  | waiting => simp [hasEnded, status] at ended
  | working connection => simp [hasEnded, status] at ended
  | finished => exact .inl rfl
  | failed error => exact .inr ⟨error, rfl⟩

namespace Pool

variable {ω : Type} [Workload ω] {runner : ThreadRunner} {pool next : Pool ω} {move : Move}

/-- All attempts that were made, the first one first. -/
def log (pool : Pool ω) : List Attempt := pool.attempts.reverse

/-- How the attempt of a worker at its next operation ends, and what it leaves behind. -/
def execution (pool : Pool ω) (move : Move) (worker : Worker) (connection : Connection)
    : Outcome × ω × Server :=
  Workload.execute pool.workload worker.next move.elapsed (Server.store connection) pool.server

/-- The cases of a step: the worker that moves has ended or does not exist, opens its connection,
attempts its next operation, or finishes.
-/
inductive Stepped (runner : ThreadRunner) (pool : Pool ω) (move : Move) : Pool ω → Prop
  | idle (ended : ∀ worker, pool.workers[move.worker]? = some worker → worker.hasEnded = true)
    : Stepped runner pool move pool
  | connected {worker} (found : pool.workers[move.worker]? = some worker)
    (waiting : worker.status = .waiting)
    : Stepped runner pool move
        { pool with
          server := (pool.server.connect runner.connection).2
          workers := pool.workers.set move.worker
            { worker with
              stats := worker.stats.startAt move.now
              status := .working (pool.server.connect runner.connection).1 } }
  | attempted {worker connection} (found : pool.workers[move.worker]? = some worker)
    (working : worker.status = .working connection) (within : worker.next < worker.stop)
    : Stepped runner pool move (pool.attempt runner move worker connection)
  | finished {worker connection} (found : pool.workers[move.worker]? = some worker)
    (working : worker.status = .working connection) (done : worker.stop ≤ worker.next)
    : Stepped runner pool move
        { pool with
          workers := pool.workers.set move.worker
            { worker with stats := worker.stats.stopAt move.now, status := .finished } }

/-- Every step is one of the cases, by the status of the worker that moves. -/
theorem step_cases (runner : ThreadRunner) (pool : Pool ω) (move : Move)
    : Stepped runner pool move (pool.step runner move) := by
  cases found : pool.workers[move.worker]? with
  | none =>
      simp only [step, found]
      exact .idle (by simp [found])
  | some worker =>
      cases status : worker.status with
      | waiting =>
          simp only [step, found, status]
          exact .connected found status
      | working connection =>
          by_cases within : worker.next < worker.stop
          · simp only [step, found, status, within, if_true]
            exact .attempted found status within
          · simp only [step, found, status, within, if_false]
            exact .finished found status (Nat.le_of_not_lt within)
      | finished =>
          simp only [step, found, status]
          refine .idle fun other same => ?_
          cases found.symm.trans same
          simp [Worker.hasEnded, status]
      | failed error =>
          simp only [step, found, status]
          refine .idle fun other same => ?_
          cases found.symm.trans same
          simp [Worker.hasEnded, status]

/-- What every step keeps holds after a run if it holds before, by induction on the moves. -/
theorem run_induction {holds : Pool ω → Prop} (start : holds pool)
    (step : ∀ current move, holds current → holds (current.step runner move))
    (moves : List Move)
    : holds (pool.run runner moves) := by
  induction moves generalizing pool with
  | nil => exact start
  | cons move rest ih => exact ih (step pool move start)

/-- The attempt that a worker makes at its next operation. -/
def made (pool : Pool ω) (move : Move) (worker : Worker) (connection : Connection) : Attempt :=
  let outcome := (pool.execution move worker connection).1
  ⟨move.worker, worker.next, outcome, pool.totalDone + if outcome.ending = .succeeded then 1 else 0⟩

theorem made_worker (pool : Pool ω) (move : Move) (worker : Worker) (connection : Connection)
    : (pool.made move worker connection).worker = move.worker :=
  rfl

theorem made_index (pool : Pool ω) (move : Move) (worker : Worker) (connection : Connection)
    : (pool.made move worker connection).index = worker.next :=
  rfl

/-- What an attempt leaves behind, besides the workload and the server: the shared counter, the log
and the worker that made it.
-/
theorem attempt_eq (pool : Pool ω) (move : Move) (worker : Worker) (connection : Connection)
    : pool.attempt runner move worker connection =
        { workload := (pool.execution move worker connection).2.1
          server := (pool.execution move worker connection).2.2
          workers := pool.workers.set move.worker
            (worker.settle runner.maxAttempts (Workload.name pool.workload)
              (pool.execution move worker connection).1
              (pool.made move worker connection).totalDone move.now)
          totalDone := (pool.made move worker connection).totalDone
          attempts := pool.made move worker connection :: pool.attempts } := by
  unfold attempt made execution
  rcases Workload.execute pool.workload worker.next move.elapsed (Server.store connection)
    pool.server with ⟨outcome, workload, server⟩
  cases outcome <;> rfl

theorem attempt_log (pool : Pool ω) (move : Move) (worker : Worker) (connection : Connection)
    : (pool.attempt runner move worker connection).log
        = pool.log ++ [pool.made move worker connection] := by
  rw [attempt_eq]
  exact List.reverse_cons

end Pool

end LineageLoad
