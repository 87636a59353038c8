import LineageLoad.Proofs.Runner.Tallies

/-!
Where the workers of a pool stand, whatever the workload does: each goes through its part of the
operations in order, attempts every one until it succeeds, and stops at the first one that it gives
up.
-/

namespace LineageLoad

-----------------------------------------------------------------------------------------
-- One worker
-----------------------------------------------------------------------------------------

/-- A log of attempts that leads through the operations from (start) up to (next), at which there
were (attempts) attempts so far: the ones before all came to succeed, and no operation failed as
often as the limit.
-/
inductive Course (limit : Option Nat) (start stop : Nat)
    : (next attempts : Nat) → List Attempt → Prop
  | start : Course limit start stop start 0 []
  | retried {next attempts log attempt} (course : Course limit start stop next attempts log)
    (within : next < stop) (index : attempt.index = next) (failed : attempt.hasFailed = true)
    (allowed : ∀ most, limit = some most → attempts + 1 < most)
    : Course limit start stop next (attempts + 1) (log ++ [attempt])
  | completed {next attempts log attempt} (course : Course limit start stop next attempts log)
    (within : next < stop) (index : attempt.index = next)
    (succeeded : attempt.hasSucceeded = true)
    : Course limit start stop (next + 1) 0 (log ++ [attempt])

/-- The outcome with which a worker gives up an operation after (attempts) others, and the error
that it reports: the limit is reached, or the attempt panics. The error has a name that is allowed.
-/
inductive GivesUp (named : String → Prop) (limit : Option Nat) (index attempts : Nat)
    : Outcome → BenchError → Prop
  | exhausted {name error} (allowed : named name) (last : limit = some (attempts + 1))
    : GivesUp named limit index attempts (.failed error)
        (.retriesExhausted name index (attempts + 1) error)
  | panicked {name} (allowed : named name)
    : GivesUp named limit index attempts .panicked (.workerPanicked name)

namespace Course

variable {limit : Option Nat} {start stop next attempts index : Nat} {log : List Attempt}

theorem start_le (course : Course limit start stop next attempts log)
    : start ≤ next := by
  induction course with
  | start => exact Nat.le_refl _
  | retried _ _ _ _ _ ih => exact ih
  | completed _ _ _ _ ih => exact Nat.le_succ_of_le ih

theorem le_stop (course : Course limit start stop next attempts log) (ordered : start ≤ stop)
    : next ≤ stop := by
  induction course with
  | start => exact ordered
  | retried _ _ _ _ _ ih => exact ih
  | completed _ within => exact within

/-- Only an operation that is left to do has attempts. -/
theorem attempts_eq_zero (course : Course limit start stop next attempts log)
    (done : stop ≤ next)
    : attempts = 0 := by
  cases course with
  | start => rfl
  | retried _ within => exact absurd within (Nat.not_lt_of_le done)
  | completed => rfl

theorem attempts_lt (course : Course limit start stop next attempts log)
    (positive : limit ≠ some 0) {most : Nat} (limited : limit = some most)
    : attempts < most := by
  cases course with
  | retried _ _ _ _ allowed => exact allowed most limited
  | start => exact Nat.pos_of_ne_zero fun zero => positive (zero ▸ limited)
  | completed => exact Nat.pos_of_ne_zero fun zero => positive (zero ▸ limited)

/-- The attempts of a course are at its operations, up to the next one. -/
theorem index_bounds (course : Course limit start stop next attempts log) {attempt : Attempt}
    (member : attempt ∈ log)
    : start ≤ attempt.index ∧ attempt.index ≤ next ∧ attempt.index < stop := by
  induction course with
  | start => cases member
  | retried course within index _ _ ih =>
      rcases List.mem_append.mp member with earlier | last
      · exact ih earlier
      · cases List.mem_singleton.mp last
        exact ⟨index ▸ course.start_le, Nat.le_of_eq index, index ▸ within⟩
  | completed course within index _ ih =>
      rcases List.mem_append.mp member with earlier | last
      · obtain ⟨above, below, inside⟩ := ih earlier
        exact ⟨above, Nat.le_succ_of_le below, inside⟩
      · cases List.mem_singleton.mp last
        exact ⟨index ▸ course.start_le, Nat.le_succ_of_le (Nat.le_of_eq index), index ▸ within⟩

/-- The attempts of a course are in the order of the operations. -/
theorem sorted (course : Course limit start stop next attempts log)
    : (log.map (·.index)).Pairwise (· ≤ ·) := by
  have append {log : List Attempt} {attempt : Attempt} {next : Nat} (index : attempt.index = next)
      (below : ∀ earlier ∈ log, earlier.index ≤ next)
      (sorted : (log.map (·.index)).Pairwise (· ≤ ·))
      : ((log ++ [attempt]).map (·.index)).Pairwise (· ≤ ·) := by
    rw [List.map_append, List.pairwise_append]
    refine ⟨sorted, List.pairwise_singleton _ _, fun earlier member last same => ?_⟩
    obtain ⟨other, found, rfl⟩ := List.mem_map.mp member
    obtain rfl : last = attempt.index := by simpa using same
    exact index ▸ below other found
  induction course with
  | start => exact List.Pairwise.nil
  | retried course _ index _ _ ih =>
      exact append index (fun _ member => (course.index_bounds member).2.1) ih
  | completed course _ index _ ih =>
      exact append index (fun _ member => (course.index_bounds member).2.1) ih

/-- All attempts at the next operation failed, and they are as many as the course says. -/
theorem attemptsAt_next (course : Course limit start stop next attempts log)
    : (attemptsAt next log).length = attempts
      ∧ ∀ attempt ∈ attemptsAt next log, attempt.hasFailed := by
  induction course with
  | start => simp [attemptsAt]
  | retried _ _ index failed _ ih =>
      rw [attemptsAt_append_same index]
      refine ⟨by simp [ih.1], fun attempt member => ?_⟩
      rcases List.mem_append.mp member with earlier | last
      · exact ih.2 attempt earlier
      · cases List.mem_singleton.mp last
        exact failed
  | @completed next attempts log attempt course _ index _ ih =>
      -- The course does not go beyond the operation that was completed.
      have none : attemptsAt (next + 1) log = [] := by
        refine List.filter_eq_nil_iff.mpr fun attempt member same => ?_
        have := (course.index_bounds member).2.1
        have : attempt.index = next + 1 := of_decide_eq_true same
        omega
      rw [attemptsAt_append_other (by omega), none]
      simp

/-- Each operation before the next one was attempted until it succeeded, and failed less often than
the limit.
-/
theorem attemptsAt_earlier (course : Course limit start stop next attempts log)
    (positive : limit ≠ some 0) (above : start ≤ index) (below : index < next)
    : ∃ failures success, attemptsAt index log = failures ++ [success]
        ∧ (∀ attempt ∈ failures, attempt.hasFailed) ∧ success.hasSucceeded
        ∧ ∀ most, limit = some most → failures.length < most := by
  induction course with
  | start => omega
  | retried _ _ same _ _ ih =>
      rw [attemptsAt_append_other (by omega)]
      exact ih below
  | @completed next attempts log attempt course _ same succeeded ih =>
      by_cases last : index = next
      · subst last
        obtain ⟨length, failed⟩ := course.attemptsAt_next
        rw [attemptsAt_append_same same]
        refine ⟨_, _, rfl, failed, succeeded, fun most limited => ?_⟩
        rw [length]
        exact course.attempts_lt positive limited
      · rw [attemptsAt_append_other (by omega)]
        exact ih (by omega)

/-- A course consists of the attempts at one operation after the other. -/
theorem eq_flatMap (course : Course limit start stop next attempts log)
    : log
      = (List.range' start (next - start)).flatMap (attemptsAt · log) ++ attemptsAt next log := by
  induction course with
  | start => simp [attemptsAt]
  | retried course _ same _ _ ih =>
      have above := course.start_le
      rw [flatMap_attemptsAt_append (by omega), attemptsAt_append_same same, ← List.append_assoc,
        ← ih]
  | completed course within same succeeded ih =>
      have none := List.length_eq_zero_iff.mp
        (course.completed within same succeeded).attemptsAt_next.1
      rw [none, List.append_nil]
      exact eq_flatMap_attemptsAt_append course.start_le ih same

/-- The successful attempts of a course are one at each operation before the next one, in order. -/
theorem successes (course : Course limit start stop next attempts log)
    : (log.filter (·.hasSucceeded)).map (·.index) = List.range' start (next - start) := by
  induction course with
  | start => simp
  | retried _ _ _ failed _ ih =>
      simpa [Attempt.hasSucceeded_of_hasFailed failed] using ih
  | completed course _ index succeeded ih =>
      have := course.start_le
      rw [List.filter_append, List.map_append, ih, Nat.sub_add_comm this, List.range'_1_concat,
        Nat.add_sub_cancel' this]
      simp [succeeded, index]

end Course

-----------------------------------------------------------------------------------------
-- A worker within its pool
-----------------------------------------------------------------------------------------

/-- Where a worker stands after its own attempts: it goes on, has completed its operations, or has
given up the one after those that it completed.
-/
inductive Worker.Stands (named : String → Prop) (limit : Option Nat) (start stop : Nat)
    (worker : Worker) (own : List Attempt) : Prop
  | busy (course : Course limit start stop worker.next worker.attempts own)
    (busy : worker.hasEnded = false)
  | finished (course : Course limit start stop stop 0 own) (status : worker.status = .finished)
  | failed {attempts before last error}
    (course : Course limit start stop worker.next attempts before) (within : worker.next < stop)
    (log : own = before ++ [last]) (index : last.index = worker.next)
    (status : worker.status = .failed error)
    (gaveUp : GivesUp named limit worker.next attempts last.outcome error)

/-- A worker is on its course through the operations from (start) to (stop), and its statistics
count its own attempts.
-/
structure Worker.OnCourse (named : String → Prop) (limit : Option Nat) (start stop : Nat)
    (worker : Worker) (own : List Attempt) : Prop where
  range : worker.stop = stop
  tallies : worker.stats.Tallies own
  stands : worker.Stands named limit start stop own

namespace Worker.OnCourse

variable {named : String → Prop} {limit : Option Nat} {start stop : Nat} {worker : Worker}
  {own : List Attempt}

theorem course (onCourse : worker.OnCourse named limit start stop own)
    (busy : worker.hasEnded = false)
    : Course limit start stop worker.next worker.attempts own := by
  cases onCourse.stands with
  | busy course => exact course
  | finished _ status => simp [hasEnded, status] at busy
  | failed _ _ _ _ status => simp [hasEnded, status] at busy

/-- A worker that finished has completed all its operations. -/
theorem course_of_finished (onCourse : worker.OnCourse named limit start stop own)
    (status : worker.status = .finished)
    : Course limit start stop stop 0 own := by
  cases onCourse.stands with
  | busy _ busy => simp [hasEnded, status] at busy
  | finished course => exact course
  | failed _ _ _ _ failed => cases status.symm.trans failed

/-- A worker that failed gave up the operation after those that it completed. -/
theorem course_of_failed (onCourse : worker.OnCourse named limit start stop own)
    {error : BenchError} (status : worker.status = .failed error)
    : ∃ attempts before last, Course limit start stop worker.next attempts before
        ∧ worker.next < stop ∧ own = before ++ [last] ∧ last.index = worker.next
        ∧ GivesUp named limit worker.next attempts last.outcome error := by
  cases onCourse.stands with
  | busy _ busy => simp [hasEnded, status] at busy
  | finished _ finished => cases status.symm.trans finished
  | failed course within log index failed gaveUp =>
      cases status.symm.trans failed
      exact ⟨_, _, _, course, within, log, index, gaveUp⟩

theorem connected (onCourse : worker.OnCourse named limit start stop own)
    (waiting : worker.status = .waiting) (now : Instant) (connection : Connection)
    : OnCourse named limit start stop
        { worker with stats := worker.stats.startAt now, status := .working connection } own where
  range := onCourse.range
  tallies := onCourse.tallies.startAt now
  stands := .busy (onCourse.course (by simp [hasEnded, waiting])) rfl

/-- A worker without further operations has completed all of them. -/
theorem finished (onCourse : worker.OnCourse named limit start stop own)
    (ordered : start ≤ stop) {connection : Connection}
    (working : worker.status = .working connection)
    (done : worker.stop ≤ worker.next) (now : Instant)
    : OnCourse named limit start stop
        { worker with stats := worker.stats.stopAt now, status := .finished } own where
  range := onCourse.range
  tallies := onCourse.tallies.stopAt now
  stands := by
    have course := onCourse.course (by simp [hasEnded, working])
    have done := onCourse.range ▸ done
    have next : worker.next = stop := Nat.le_antisymm (course.le_stop ordered) done
    rw [course.attempts_eq_zero done, next] at course
    exact .finished course rfl

/-- An attempt leads a worker to the next operation, to a further attempt or to its end. -/
theorem settle (onCourse : worker.OnCourse named limit start stop own) (positive : limit ≠ some 0)
    {connection : Connection} (working : worker.status = .working connection)
    (within : worker.next < worker.stop) {name : String} (allowed : named name) {attempt : Attempt}
    (index : attempt.index = worker.next) (now : Instant)
    : OnCourse named limit start stop
        (worker.settle limit name attempt.outcome attempt.totalDone now) (own ++ [attempt]) := by
  have course := onCourse.course (by simp [hasEnded, working])
  have within := onCourse.range ▸ within
  cases outcome : attempt.outcome with
  | succeeded op =>
      refine ⟨onCourse.range, onCourse.tallies.update outcome _, .busy ?_ ?_⟩
      · have succeeded : attempt.hasSucceeded = true := by
          simp [Attempt.hasSucceeded, outcome, Outcome.ending]
        exact course.completed within index succeeded
      · simp [Worker.settle, hasEnded, working]
  | failed error =>
      have failed : attempt.hasFailed = true := by
        simp [Attempt.hasFailed, outcome, Outcome.ending]
      by_cases last : limit.any (· ≤ worker.attempts + 1) = true
      · simp only [Worker.settle, last, if_true]
        refine ⟨onCourse.range, (onCourse.tallies.recordFailure outcome).stopAt now, ?_⟩
        refine .failed course within rfl index rfl (outcome ▸ .exhausted allowed ?_)
        obtain ⟨most, limited, reached⟩ := (Option.any_eq_true _ _).mp last
        have := course.attempts_lt positive limited
        have : most ≤ worker.attempts + 1 := of_decide_eq_true reached
        rw [limited]
        congr 1
        omega
      · simp only [Worker.settle, last]
        refine ⟨onCourse.range, onCourse.tallies.recordFailure outcome, .busy ?_ ?_⟩
        · refine course.retried within index failed fun most limited => ?_
          simpa [limited] using last
        · simp [hasEnded, working]
  | panicked =>
      refine ⟨onCourse.range, onCourse.tallies.panicked outcome, ?_⟩
      refine .failed course within rfl index rfl ?_
      rw [outcome]
      exact .panicked allowed

/-- The attempts of a worker are at its operations. -/
theorem index_bounds (onCourse : worker.OnCourse named limit start stop own) {attempt : Attempt}
    (member : attempt ∈ own)
    : start ≤ attempt.index ∧ attempt.index < stop := by
  cases onCourse.stands with
  | busy course =>
      obtain ⟨above, _, below⟩ := course.index_bounds member
      exact ⟨above, below⟩
  | finished course =>
      obtain ⟨above, _, below⟩ := course.index_bounds member
      exact ⟨above, below⟩
  | failed course within log index =>
      rw [log] at member
      rcases List.mem_append.mp member with earlier | last
      · obtain ⟨above, _, below⟩ := course.index_bounds earlier
        exact ⟨above, below⟩
      · cases List.mem_singleton.mp last
        exact ⟨index ▸ course.start_le, index ▸ within⟩

end Worker.OnCourse

-----------------------------------------------------------------------------------------
-- All workers of a pool
-----------------------------------------------------------------------------------------

/-- All workers are on their courses, each through its own share of the operations, and the shared
counter has handed out its numbers one after the other.
-/
structure Pool.OnCourse {ω : Type} (named : String → Prop) (runner : ThreadRunner) (share : Nat)
    (pool : Pool ω) : Prop where
  count : pool.workers.length = runner.numThreads
  owned : ∀ attempt ∈ pool.log, attempt.worker < runner.numThreads
  workers : ∀ position (worker : Worker), pool.workers[position]? = some worker →
    worker.OnCourse named runner.maxAttempts (position * share) ((position + 1) * share)
      (ownAttempts position pool.log)
  counter : (pool.log.filter (·.hasSucceeded)).map (·.totalDone) = List.range' 1 pool.totalDone

namespace Pool.OnCourse

variable {ω : Type} {named : String → Prop} {runner : ThreadRunner} {share : Nat} {pool : Pool ω}

theorem share_ordered (position share : Nat)
    : position * share ≤ (position + 1) * share :=
  Nat.mul_le_mul_right share (Nat.le_succ position)

theorem start (named : String → Prop) (runner : ThreadRunner) (numOperations : Nat)
    (workload : ω) (server : Server)
    : OnCourse named runner (runner.opsPerThread numOperations)
        { workload, server, workers := runner.workers numOperations } where
  count := by simp [ThreadRunner.workers]
  owned := by simp [log]
  workers position worker found := by
    simp only [ThreadRunner.workers, List.getElem?_map, Option.map_eq_some_iff] at found
    obtain ⟨same, ranged, rfl⟩ := found
    obtain ⟨_, rfl⟩ := List.getElem?_eq_some_iff.mp ranged
    rw [List.getElem_range]
    exact ⟨rfl, .new, .busy .start rfl⟩
  counter := rfl

theorem setWorker (onCourse : OnCourse named runner share pool) {server : Server} {position : Nat}
    {worker : Worker} (replaced : worker.OnCourse named runner.maxAttempts (position * share)
      ((position + 1) * share) (ownAttempts position pool.log))
    : OnCourse named runner share
        { pool with server, workers := pool.workers.set position worker } where
  count := by simpa using onCourse.count
  owned := onCourse.owned
  workers other current found := by
    rw [List.getElem?_set] at found
    split at found
    · next same =>
        subst same
        split at found
        · cases found
          exact replaced
        · cases found
    · exact onCourse.workers other current found
  counter := onCourse.counter

/-- An attempt belongs to the worker whose share its operation is in. -/
theorem worker_eq (onCourse : OnCourse named runner share pool) {attempt : Attempt}
    (member : attempt ∈ pool.log)
    : attempt.worker = attempt.index / share ∧ attempt.index < runner.numThreads * share := by
  have own : attempt ∈ ownAttempts attempt.worker pool.log := by simpa [ownAttempts] using member
  have exists_worker := onCourse.owned attempt member
  obtain ⟨worker, found⟩ : ∃ worker, pool.workers[attempt.worker]? = some worker :=
    ⟨_, List.getElem?_eq_getElem (onCourse.count ▸ exists_worker)⟩
  obtain ⟨above, below⟩ := (onCourse.workers _ worker found).index_bounds own
  refine ⟨(Nat.div_eq_of_lt_le above below).symm, Nat.lt_of_lt_of_le below ?_⟩
  exact Nat.mul_le_mul_right share exists_worker

/-- All attempts at an operation are those of the worker whose share it is in. -/
theorem attemptsAt_eq (onCourse : OnCourse named runner share pool) (index : Nat)
    : attemptsAt index pool.log = attemptsAt index (ownAttempts (index / share) pool.log) := by
  unfold attemptsAt ownAttempts
  rw [List.filter_filter]
  refine List.filter_congr fun attempt member => ?_
  by_cases same : attempt.index = index
  · simp [same, (onCourse.worker_eq member).1]
  · simp [same]

variable [Workload ω]

/-- An attempt keeps all workers on their courses. -/
theorem attempt (onCourse : OnCourse named runner share pool)
    (positive : runner.maxAttempts ≠ some 0) (allowed : named (Workload.name pool.workload))
    {move : Move} {worker : Worker} {connection : Connection}
    (found : pool.workers[move.worker]? = some worker)
    (working : worker.status = .working connection)
    (within : worker.next < worker.stop)
    : OnCourse named runner share (pool.attempt runner move worker connection) where
  count := by
    rw [attempt_eq]
    simpa using onCourse.count
  owned := by
    rw [attempt_log]
    intro attempt member
    rcases List.mem_append.mp member with earlier | last
    · exact onCourse.owned attempt earlier
    · cases List.mem_singleton.mp last
      exact onCourse.count ▸ (List.getElem?_eq_some_iff.mp found).1
  workers other current seen := by
    rw [attempt_log]
    rw [attempt_eq] at seen
    dsimp only at seen
    rw [List.getElem?_set] at seen
    split at seen
    · next same =>
        subst same
        split at seen
        · cases seen
          rw [ownAttempts_append_own (pool.made_worker move worker connection)]
          exact (onCourse.workers _ worker found).settle positive working within allowed
            (pool.made_index move worker connection) _
        · cases seen
    · next different =>
        rw [ownAttempts_append_other different]
        exact onCourse.workers other current seen
  counter := by
    rw [attempt_log, List.filter_append, List.map_append, onCourse.counter, attempt_eq]
    by_cases succeeded : (pool.execution move worker connection).1.ending = .succeeded
    · simp [made, Attempt.hasSucceeded, succeeded, List.range'_1_concat, Nat.add_comm]
    · simp [made, Attempt.hasSucceeded, succeeded]

/-- Every step keeps all workers on their courses, by the cases of a step. -/
theorem step (onCourse : OnCourse named runner share pool) (positive : runner.maxAttempts ≠ some 0)
    (allowed : named (Workload.name pool.workload)) (move : Move)
    : OnCourse named runner share (pool.step runner move) := by
  have stepped := step_cases runner pool move
  generalize pool.step runner move = next at stepped ⊢
  cases stepped with
  | idle => exact onCourse
  | connected found waiting =>
      exact onCourse.setWorker ((onCourse.workers _ _ found).connected waiting _ _)
  | attempted found working within => exact onCourse.attempt positive allowed found working within
  | finished found working done =>
      exact onCourse.setWorker
        ((onCourse.workers _ _ found).finished (share_ordered _ _) working done _)

end Pool.OnCourse

end LineageLoad
