import LineageLoad.Proofs.Runner.Results
import LineageLoad.Runner.Scripted

/-!
A workload that runs to its end does each of its operations exactly once, and its report adds up
exactly what was done.
-/

namespace LineageLoad

/-- A log in which each of the operations that the workers share out is completed exactly once. A
worker has a part of (share) operations.
-/
structure ExactlyOnce (runner : ThreadRunner) (share : Nat) (log : List Attempt) : Prop where
  /-- The attempts at each operation are fewer failures than the limit, and then a success. -/
  once : ∀ index < runner.numThreads * share, ∃ failures success,
    attemptsAt index log = failures ++ [success]
      ∧ (∀ attempt ∈ failures, attempt.hasFailed) ∧ success.hasSucceeded
      ∧ ∀ most, runner.maxAttempts = some most → failures.length < most
  /-- No other operation is attempted. -/
  inside : ∀ attempt ∈ log, attempt.index < runner.numThreads * share
  /-- Each worker goes through the operations upwards. -/
  ordered : ∀ position, ((ownAttempts position log).map (·.index)).Pairwise (· ≤ ·)
  /-- The operations of each worker are its part, without a gap. -/
  consecutive : ∀ position < runner.numThreads,
    ((ownAttempts position log).filter (·.hasSucceeded)).map (·.index)
      = List.range' (position * share) share
  /-- No two workers attempt the same operation. -/
  apart : ∀ attempt ∈ log, ∀ other ∈ log,
    attempt.index = other.index → attempt.worker = other.worker
  /-- The shared counter hands out each number exactly once, in order. -/
  counter : (log.filter (·.hasSucceeded)).map (·.totalDone)
    = List.range' 1 (runner.numThreads * share)

namespace Pool.OnCourse

variable {ω : Type} {named : String → Prop} {runner : ThreadRunner} {share : Nat} {pool : Pool ω}

/-- Workers that have finished did each of their operations exactly once. -/
theorem exactlyOnce (onCourse : OnCourse named runner share pool)
    (positive : runner.maxAttempts ≠ some 0)
    (finished : ∀ worker ∈ pool.workers, worker.status = .finished)
    : ExactlyOnce runner share pool.log where
  once index inside := by
    have shared : 0 < share := Nat.pos_of_ne_zero fun zero => by simp [zero] at inside
    have owner : index / share < runner.numThreads :=
      Nat.div_lt_of_lt_mul (Nat.mul_comm _ _ ▸ inside)
    rw [onCourse.attemptsAt_eq]
    refine (onCourse.finished finished owner).attemptsAt_earlier positive
      (Nat.div_mul_le_self _ _) ?_
    exact Nat.lt_mul_of_div_lt (Nat.lt_succ_self _) shared
  inside attempt member := (onCourse.worker_eq member).2
  ordered position := by
    by_cases inside : position < runner.numThreads
    · exact (onCourse.finished finished inside).sorted
    · have none : ownAttempts position pool.log = [] := by
        refine List.filter_eq_nil_iff.mpr fun attempt member same => inside ?_
        exact of_decide_eq_true same ▸ onCourse.owned attempt member
      rw [none]
      exact .nil
  consecutive position inside := by
    rw [(onCourse.finished finished inside).successes, ← Nat.sub_mul]
    simp
  apart attempt member other found same := by
    rw [(onCourse.worker_eq member).1, (onCourse.worker_eq found).1, same]
  counter := by
    have length := congrArg List.length onCourse.counter
    rw [List.length_map, ← List.countP_eq_length_filter, onCourse.countP_hasSucceeded finished,
      List.length_range'] at length
    rw [onCourse.counter, length]

end Pool.OnCourse

namespace ThreadRunner

variable {ω : Type} [Workload ω]

/-- A run that hands over a report, in whatever order the workers moved, did each operation that the
workers share out exactly once, and its report has the exact totals of what it did.
-/
theorem runMoves_ok_exactlyOnce {connection : ConnectionConfig} {config : ThreadEnvConfig}
    {runner : ThreadRunner} (made : new? connection config = .ok runner) (moves : List Move)
    (position : Nat) (workload : ω) (numOperations : Nat) (state : RunState) (report : Report)
    (returned : (runner.runMoves moves position workload numOperations state).1
      = some (.ok report))
    : ∃ log,
        (runner.runMoves moves position workload numOperations state).2.2.events
          = state.events ++ (position, .prepare true)
            :: log.map (position, .attempt ·) ++ [(position, .teardown)]
        ∧ ExactlyOnce runner (numOperations / runner.numThreads) log
        ∧ report.operations = runner.numThreads * (numOperations / runner.numThreads)
        ∧ report.failures = log.countP (·.hasFailed)
        ∧ report.bytes = ((completedOps log).map (·.bytes)).sum
        ∧ report.totalLatency = ((completedOps log).map (·.elapsed)).sum := by
  obtain ⟨_, _, positive⟩ := new?_eq_ok made
  obtain ⟨prepared, stats, handed, rfl⟩ := runMoves_eq_ok returned
  have onCourse := poolAfter_onCourse positive moves workload numOperations state.server
  have finished := (Pool.result?_eq_ok handed).2
  have tallies := onCourse.tallies handed
  refine ⟨_, (runMoves_of_prepared moves position prepared).2.2,
    onCourse.exactlyOnce positive finished, ?_, tallies.failures, tallies.bytes, tallies.latency⟩
  exact tallies.done.trans (onCourse.countP_hasSucceeded finished)

/-- A workload of five operations; the first attempt at the second one is refused. -/
def refusedOnce : ScriptedWorkload where
  name := "refused_once"
  numOperations := 5
  refusal := none
  outcome index attempt :=
    if index = 1 ∧ attempt = 1 then .failed (.refusedPreparation "busy") else .succeeded ⟨7, 10⟩

/-- Two workers that move in turn run the workload to its end; one operation is left out. -/
theorem runMoves_refusedOnce
    : ∃ report log,
        (runMoves ⟨.fakeDatabase, 2, some 3⟩ (List.replicate 5 [⟨1, 0, 0⟩, ⟨0, 0, 0⟩]).flatten 0
          refusedOnce 5 { server := .empty }).1 = some (.ok report)
        ∧ ExactlyOnce ⟨.fakeDatabase, 2, some 3⟩ 2 log ∧ report.operations = 4
        ∧ report.failures = log.countP (·.hasFailed)
        ∧ report.bytes = ((completedOps log).map (·.bytes)).sum
        ∧ report.totalLatency = ((completedOps log).map (·.elapsed)).sum := by
  have returned : ∃ report,
      (runMoves ⟨.fakeDatabase, 2, some 3⟩ (List.replicate 5 [⟨1, 0, 0⟩, ⟨0, 0, 0⟩]).flatten 0
        refusedOnce 5 { server := .empty }).1 = some (.ok report) := ⟨_, rfl⟩
  obtain ⟨report, returned⟩ := returned
  have made : new? .fakeDatabase ⟨2, some 3⟩ = .ok ⟨.fakeDatabase, 2, some 3⟩ := rfl
  obtain ⟨log, _, exact, totals⟩ := runMoves_ok_exactlyOnce made _ _ _ _ _ report returned
  exact ⟨report, log, returned, exact, totals⟩

end ThreadRunner

end LineageLoad
