import LineageLoad.Proofs.Runner.Results
import LineageLoad.Proofs.Runner.Scripts

/-!
What becomes of a workload that follows a script: once all workers have ended, the answer is that of
the least bad operation, and each worker has covered its share up to its own first one.
-/

namespace LineageLoad

/-- The attempts at (number) operations from (start) on, each with its ending, if every operation is
attempted (count) times.
-/
def planned (script : (index attempt : Nat) → Ending) (count : Nat → Nat) (start number : Nat)
    : List (Nat × Ending) :=
  (List.range' start number).flatMap fun index =>
    (List.range' 1 (count index)).map fun attempt => (index, script index attempt)

/-- A worker attempted its operations in order up to and including the first bad one, each as often
as it takes, and no other operation.
-/
def Covers (script : (index attempt : Nat) → Ending) (limit : Option Nat) (count : Nat → Nat)
    (start share : Nat) (own : List Attempt) : Prop :=
  ∃ number ≤ share,
    own.map (fun attempt => (attempt.index, attempt.outcome.ending))
      = planned script count start number
    ∧ (∀ index, start ≤ index → index + 1 < start + number → ¬ Bad script limit index)
    ∧ (number < share → 0 < number ∧ Bad script limit (start + number - 1))

/-- The answer of a run and its log are what the script says: the answer is that of the least bad
operation of all workers, and each worker covers its own share.
-/
structure Verdict (script : (index attempt : Nat) → Ending) (runner : ThreadRunner) (name : String)
    (count : Nat → Nat) (share : Nat) (log : List Attempt) (result : Except BenchError Report)
    : Prop where
  ok_iff : (∃ report, result = .ok report)
    ↔ ∀ index < runner.numThreads * share, ¬ Bad script runner.maxAttempts index
  least : ∀ index < runner.numThreads * share, Bad script runner.maxAttempts index →
    (∀ earlier < index, ¬ Bad script runner.maxAttempts earlier) →
    ∃ error, result = .error error ∧ Reports script runner.maxAttempts name log index error
  covers : ∀ position < runner.numThreads,
    Covers script runner.maxAttempts count (position * share) share (ownAttempts position log)

/-- A pool whose workload follows a script from its preparation on: the workers are on their courses
and the log is scripted.
-/
structure Pool.OnScript {ω : Type} [Workload ω] (start : ω) (name : String)
    (script : (index attempt : Nat) → Ending) (runner : ThreadRunner) (share : Nat) (pool : Pool ω)
    : Prop where
  onCourse : pool.OnCourse (· = name) runner share
  reached : Workload.Reaches start pool.workload (pool.attempts.map (·.index))
  scripted : Scripted script pool.log

/-- A course settles the operations that it has behind it, and none of them is bad. -/
theorem Course.settled {script : (index attempt : Nat) → Ending} {limit : Option Nat}
    {start stop next attempts : Nat} {before log : List Attempt}
    (course : Course limit start stop next attempts before) (positive : limit ≠ some 0)
    (scripted : Scripted script log) {index : Nat} (above : start ≤ index) (below : index < next)
    (same : attemptsAt index log = attemptsAt index before)
    : Settles script limit index (attemptsAt index log).length ∧ ¬ Bad script limit index := by
  obtain ⟨failures, success, split, failed, succeeded, allowed⟩ :=
    course.attemptsAt_earlier positive above below
  exact scripted.succeeded (same.trans split) failed succeeded allowed

/-- A scripted log that consists of settled operations is as planned. -/
theorem Scripted.planned_eq {script : (index attempt : Nat) → Ending} {count : Nat → Nat}
    {start number : Nat} {log : List Attempt} (scripted : Scripted script log)
    (counts : ∀ index, start ≤ index → index < start + number →
      (attemptsAt index log).length = count index)
    : ((List.range' start number).flatMap (attemptsAt · log)).map
          (fun attempt => (attempt.index, attempt.outcome.ending))
        = planned script count start number := by
  rw [planned, List.map_flatMap]
  refine List.flatMap_congr fun index member => ?_
  obtain ⟨above, below⟩ := List.mem_range'_1.mp member
  rw [← counts index above below]
  have endings := congrArg (List.map (Prod.mk index)) (scripted index)
  rw [List.map_map, List.map_map] at endings
  refine Eq.trans (List.map_congr_left fun attempt found => ?_) endings
  have same : attempt.index = index := of_decide_eq_true (List.mem_filter.mp found).2
  rw [Function.comp_apply, same]

namespace Pool.OnScript

variable {ω : Type} [Workload ω] {workload : ω} {name : String}
  {script : (index attempt : Nat) → Ending} {runner : ThreadRunner} {share : Nat} {pool : Pool ω}

/-- Every step keeps a pool to the script of its workload, by the cases of a step. -/
theorem step (onScript : OnScript workload name script runner share pool)
    (follows : Workload.Follows workload name script) (positive : runner.maxAttempts ≠ some 0)
    (move : Move)
    : OnScript workload name script runner share (pool.step runner move) := by
  have onCourse := onScript.onCourse.step positive (follows.named onScript.reached) move
  have stepped := step_cases runner pool move
  generalize pool.step runner move = next at onCourse stepped ⊢
  cases stepped with
  | idle => exact onScript
  | connected => exact ⟨onCourse, onScript.reached, onScript.scripted⟩
  | finished => exact ⟨onCourse, onScript.reached, onScript.scripted⟩
  | @attempted worker connection =>
      refine ⟨onCourse, ?_, ?_⟩
      · rw [attempt_eq]
        exact onScript.reached.execute worker.next move.elapsed connection pool.server
      · rw [attempt_log]
        refine onScript.scripted.append ?_
        rw [length_attemptsAt, log, List.map_reverse, List.count_reverse]
        exact follows.ends onScript.reached worker.next move.elapsed connection pool.server

theorem attemptsAt_own (onScript : OnScript workload name script runner share pool)
    {position index : Nat} (above : position * share ≤ index)
    (below : index < (position + 1) * share)
    : attemptsAt index pool.log = attemptsAt index (ownAttempts position pool.log) := by
  rw [onScript.onCourse.attemptsAt_eq, Nat.div_eq_of_lt_le above below]

/-- The attempts of the log at the first operations of a worker are those that the worker made. -/
theorem flatMap_attemptsAt_own (onScript : OnScript workload name script runner share pool)
    {position number : Nat} (within : number ≤ share)
    : (List.range' (position * share) number).flatMap (attemptsAt · (ownAttempts position pool.log))
        = (List.range' (position * share) number).flatMap (attemptsAt · pool.log) := by
  refine List.flatMap_congr fun index member => ?_
  obtain ⟨above, below⟩ := List.mem_range'_1.mp member
  refine (onScript.attemptsAt_own above ?_).symm
  rw [Nat.succ_mul]
  omega

variable {count : Nat → Nat} {position : Nat} {worker : Worker}

/-- A worker that finished has no bad operation and covers its whole share. -/
theorem finished (onScript : OnScript workload name script runner share pool)
    (positive : runner.maxAttempts ≠ some 0)
    (counts : ∀ index < runner.numThreads * share,
      Settles script runner.maxAttempts index (count index))
    (found : pool.workers[position]? = some worker) (status : worker.status = .finished)
    : (∀ index, position * share ≤ index → index < (position + 1) * share →
        ¬ Bad script runner.maxAttempts index)
      ∧ Covers script runner.maxAttempts count (position * share) share
          (ownAttempts position pool.log) := by
  have stop : (position + 1) * share ≤ runner.numThreads * share :=
    Nat.mul_le_mul_right share (onScript.onCourse.count ▸ (List.getElem?_eq_some_iff.mp found).1)
  have next : (position + 1) * share = position * share + share := Nat.succ_mul position share
  have course := (onScript.onCourse.workers position worker found).course_of_finished status
  have settled (index : Nat) (above : position * share ≤ index)
      (below : index < (position + 1) * share) :=
    course.settled positive onScript.scripted above below (onScript.attemptsAt_own above below)
  refine ⟨fun index above below => (settled index above below).2, share, Nat.le_refl _, ?_,
    fun index above below => (settled index above (by omega)).2,
    fun less => absurd less (Nat.lt_irrefl _)⟩
  have split := course.eq_flatMap
  rw [List.length_eq_zero_iff.mp course.attemptsAt_next.1, List.append_nil, next,
    Nat.add_sub_cancel_left, onScript.flatMap_attemptsAt_own (Nat.le_refl share)] at split
  rw [split]
  refine onScript.scripted.planned_eq fun index above below => ?_
  exact (settled index above (by omega)).1.unique (counts index (by omega))

/-- A worker that failed reports its first bad operation and covers its share up to it. -/
theorem failed (onScript : OnScript workload name script runner share pool)
    (positive : runner.maxAttempts ≠ some 0)
    (counts : ∀ index < runner.numThreads * share,
      Settles script runner.maxAttempts index (count index))
    (found : pool.workers[position]? = some worker) {error : BenchError}
    (status : worker.status = .failed error)
    : (position * share ≤ worker.next ∧ worker.next < (position + 1) * share
        ∧ (∀ index, position * share ≤ index → index < worker.next →
          ¬ Bad script runner.maxAttempts index)
        ∧ Bad script runner.maxAttempts worker.next
        ∧ Reports script runner.maxAttempts name pool.log worker.next error)
      ∧ Covers script runner.maxAttempts count (position * share) share
          (ownAttempts position pool.log) := by
  have stop : (position + 1) * share ≤ runner.numThreads * share :=
    Nat.mul_le_mul_right share (onScript.onCourse.count ▸ (List.getElem?_eq_some_iff.mp found).1)
  have next : (position + 1) * share = position * share + share := Nat.succ_mul position share
  obtain ⟨attempts, before, last, course, within, own, same, gaveUp⟩ :=
    (onScript.onCourse.workers position worker found).course_of_failed status
  have first := course.start_le
  have settled (index : Nat) (above : position * share ≤ index) (below : index < worker.next) := by
    refine course.settled positive onScript.scripted above below ?_
    rw [onScript.attemptsAt_own above (Nat.lt_trans below within), own,
      attemptsAt_append_other (by omega)]
  obtain ⟨length, failures⟩ := course.attemptsAt_next
  -- The last attempt is the one that the course before does not have.
  have tries : attemptsAt worker.next pool.log = attemptsAt worker.next before ++ [last] := by
    rw [onScript.attemptsAt_own first within, own, attemptsAt_append_same same]
  subst length
  obtain ⟨settles, reports⟩ := onScript.scripted.gaveUp tries failures gaveUp
    fun _ => course.attempts_lt positive
  refine ⟨⟨first, within, fun index above below => (settled index above below).2, reports.bad,
    reports⟩, worker.next + 1 - position * share, by omega, ?_, fun index above below =>
    (settled index above (by omega)).2, fun _ => ⟨by omega, ?_⟩⟩
  · have split := eq_flatMap_attemptsAt_append first course.eq_flatMap same
    rw [← own, onScript.flatMap_attemptsAt_own (by omega)] at split
    rw [split]
    refine onScript.scripted.planned_eq fun index above below => ?_
    refine Settles.unique ?_ (counts index (by omega))
    rcases Nat.lt_or_eq_of_le (show index ≤ worker.next by omega) with earlier | same
    · exact (settled index above earlier).1
    · exact same ▸ settles
  · rw [show position * share + (worker.next + 1 - position * share) - 1 = worker.next by omega]
    exact reports.bad

/-- As long as all workers before a position finished, no operation before its share is bad. -/
theorem not_bad_before (onScript : OnScript workload name script runner share pool)
    (positive : runner.maxAttempts ≠ some 0)
    (counts : ∀ index < runner.numThreads * share,
      Settles script runner.maxAttempts index (count index))
    (finished : ∀ earlier (worker : Worker), earlier < position →
      pool.workers[earlier]? = some worker → worker.status = .finished)
    (inside : position ≤ runner.numThreads) {index : Nat} (below : index < position * share)
    : ¬ Bad script runner.maxAttempts index := by
  have shared : 0 < share := Nat.pos_of_ne_zero fun zero => by simp [zero] at below
  have owner : index / share < position := Nat.div_lt_of_lt_mul (Nat.mul_comm _ _ ▸ below)
  have known : index / share < pool.workers.length :=
    onScript.onCourse.count ▸ Nat.lt_of_lt_of_le owner inside
  have found := List.getElem?_eq_getElem known
  refine (onScript.finished positive counts found (finished _ _ owner found)).1 index
    (Nat.div_mul_le_self _ _) ?_
  exact Nat.lt_mul_of_div_lt (Nat.lt_succ_self _) shared

/-- What a pool hands over is the verdict of the script. -/
theorem verdict (onScript : OnScript workload name script runner share pool)
    (positive : runner.maxAttempts ≠ some 0)
    (counts : ∀ index < runner.numThreads * share,
      Settles script runner.maxAttempts index (count index))
    {result : Except BenchError ThreadStats} (handed : pool.result? = some result)
    : Verdict script runner name count share pool.log (result.map (·.report name)) := by
  have ended := result?_isSome_iff.mp (by rw [handed]; rfl)
  have covers (position : Nat) (inside : position < runner.numThreads)
      : Covers script runner.maxAttempts count (position * share) share
          (ownAttempts position pool.log) := by
    have found := List.getElem?_eq_getElem (onScript.onCourse.count ▸ inside)
    rcases Worker.status_of_hasEnded (ended _ (List.mem_of_getElem? found)) with status | failed
    · exact (onScript.finished positive counts found status).2
    · obtain ⟨error, status⟩ := failed
      exact (onScript.failed positive counts found status).2
  cases result with
  | ok total =>
      have none (index : Nat) (below : index < runner.numThreads * share)
          : ¬ Bad script runner.maxAttempts index :=
        onScript.not_bad_before positive counts
          (fun _ worker _ found => (result?_eq_ok handed).2 worker (List.mem_of_getElem? found))
          (Nat.le_refl _) below
      exact ⟨⟨fun _ => none, fun _ => ⟨_, rfl⟩⟩,
        fun index below bad => absurd bad (none index below), covers⟩
  | error error =>
      obtain ⟨before, worker, after, split, status, finished⟩ := result?_eq_error handed
      have found : pool.workers[before.length]? = some worker := by simp [split]
      obtain ⟨⟨first, within, own, bad, reports⟩, _⟩ :=
        onScript.failed positive counts found status
      have inside : before.length < runner.numThreads :=
        onScript.onCourse.count ▸ (List.getElem?_eq_some_iff.mp found).1
      have below : worker.next < runner.numThreads * share :=
        Nat.lt_of_lt_of_le within (Nat.mul_le_mul_right share inside)
      -- The workers before finished, so no operation before this one is bad.
      have least (index : Nat) (earlier : index < worker.next)
          : ¬ Bad script runner.maxAttempts index := by
        by_cases above : before.length * share ≤ index
        · exact own index above earlier
        · refine onScript.not_bad_before positive counts (fun position other sooner seen => ?_)
            (Nat.le_of_lt inside) (Nat.lt_of_not_le above)
          rw [split, List.getElem?_append_left sooner] at seen
          exact finished other (List.mem_of_getElem? seen)
      refine ⟨⟨fun ⟨_, ok⟩ => (nomatch ok), fun none => absurd bad (none _ below)⟩, ?_, covers⟩
      intro index _ badIndex leastIndex
      obtain rfl : index = worker.next := by
        rcases Nat.lt_trichotomy index worker.next with sooner | same | later
        · exact absurd badIndex (least index sooner)
        · exact same
        · exact absurd bad (leastIndex _ later)
      exact ⟨error, rfl, reports⟩

end Pool.OnScript

end LineageLoad
