import Mathlib.Algebra.Order.BigOperators.Group.List
import Mathlib.Algebra.Order.Group.Nat
import LineageLoad.Proofs.Runner.Verdicts
import LineageLoad.Runner.Scripted

/-!
Schedules of a workload that follows a script: every one that is long enough for each worker brings
the workload to its end, and whatever the schedule, the answer and what each worker did are what the
script says.
-/

namespace LineageLoad

-----------------------------------------------------------------------------------------
-- Long schedules
-----------------------------------------------------------------------------------------

/-- How far a worker has come if no operation has more than (most) attempts. It grows with every
move of a worker that has not ended.
-/
def Worker.pace (most : Nat) (worker : Worker) : Nat :=
  worker.next * most + worker.attempts + if worker.status = .waiting then 0 else 1

/-- An attempt brings a worker further or to its end, if the operation may have one more. -/
theorem Worker.pace_settle {worker : Worker} {connection : Connection} {most : Nat}
    (working : worker.status = .working connection) (fewer : worker.attempts < most)
    (limit : Option Nat) (name : String) (outcome : Outcome) (totalDone : Nat) (now : Instant)
    : (worker.settle limit name outcome totalDone now).hasEnded = true
      ∨ worker.pace most < (worker.settle limit name outcome totalDone now).pace most := by
  cases outcome with
  | succeeded op =>
      refine .inr ?_
      simp only [pace, settle, working, Nat.succ_mul, reduceCtorEq, if_false]
      omega
  | failed error =>
      by_cases last : limit.any (· ≤ worker.attempts + 1) = true
      · exact .inl (by simp only [settle, last, if_true, hasEnded])
      · refine .inr ?_
        simp only [pace, settle, last, working, reduceCtorEq, if_false]
        omega
  | panicked => exact .inl rfl

/-- The worker at a position has ended, or has come as far as the number of its moves. -/
def Pool.Paced {ω : Type} (most position moved : Nat) (pool : Pool ω) : Prop :=
  ∀ worker : Worker, pool.workers[position]? = some worker →
    worker.hasEnded = true ∨ moved ≤ worker.pace most

theorem Pool.Paced.replace {ω : Type} {pool next : Pool ω} {most position moved mover : Nat}
    {worker replaced : Worker} (paced : pool.Paced most position moved)
    (found : pool.workers[mover]? = some worker) (busy : worker.hasEnded = false)
    (further : replaced.hasEnded = true ∨ worker.pace most < replaced.pace most)
    (workers : next.workers = pool.workers.set mover replaced)
    : next.Paced most position (moved + if mover = position then 1 else 0) := by
  intro current seen
  rw [workers, List.getElem?_set] at seen
  split at seen
  · next same =>
      subst same
      split at seen
      · cases seen
        rcases further with ended | further
        · exact .inl ended
        · rcases paced worker found with ended | reached
          · simp [busy] at ended
          · exact .inr (by rw [if_pos rfl]; omega)
      · cases seen
  · next different =>
      rw [if_neg different]
      exact paced current seen

namespace Pool.OnScript

variable {ω : Type} [Workload ω] {workload : ω} {name : String}
  {script : (index attempt : Nat) → Ending} {runner : ThreadRunner} {share : Nat} {pool : Pool ω}
  {count : Nat → Nat} {position moved most : Nat} {worker : Worker}

/-- A worker that goes on has not made all attempts at its next operation. -/
theorem attempts_lt (onScript : OnScript workload name script runner share pool)
    (positive : runner.maxAttempts ≠ some 0)
    (counts : ∀ index < runner.numThreads * share,
      Settles script runner.maxAttempts index (count index))
    (found : pool.workers[position]? = some worker) (busy : worker.hasEnded = false)
    (within : worker.next < (position + 1) * share)
    : worker.attempts < count worker.next := by
  have inside : position < runner.numThreads :=
    onScript.onCourse.count ▸ (List.getElem?_eq_some_iff.mp found).1
  have below : worker.next < runner.numThreads * share :=
    Nat.lt_of_lt_of_le within (Nat.mul_le_mul_right share inside)
  have course := (onScript.onCourse.workers position worker found).course busy
  obtain ⟨length, failures⟩ := course.attemptsAt_next
  rw [← onScript.attemptsAt_own course.start_le within] at length failures
  refine (counts _ below).le (fun earlier first sooner => ?_) fun _ => course.attempts_lt positive
  exact onScript.scripted.failed (List.append_nil _).symm failures earlier first (by omega)

/-- Every move of a worker brings it further or to its end, by the cases of a step. -/
theorem paced_step (onScript : OnScript workload name script runner share pool)
    (positive : runner.maxAttempts ≠ some 0)
    (counts : ∀ index < runner.numThreads * share,
      Settles script runner.maxAttempts index (count index))
    (bounded : ∀ index < runner.numThreads * share, count index ≤ most)
    (paced : pool.Paced most position moved) (move : Move)
    : (pool.step runner move).Paced most position
        (moved + if move.worker = position then 1 else 0) := by
  have stepped := step_cases runner pool move
  generalize pool.step runner move = next at stepped ⊢
  cases stepped with
  | idle ended =>
      intro current found
      by_cases same : move.worker = position
      · exact .inl (ended current (same ▸ found))
      · rw [if_neg same]
        exact paced current found
  | connected found waiting =>
      refine paced.replace found (by simp [Worker.hasEnded, waiting]) (.inr ?_) rfl
      simp [Worker.pace, waiting]
  | finished found working =>
      exact paced.replace found (by simp [Worker.hasEnded, working]) (.inl rfl) rfl
  | @attempted worker connection found working within =>
      have busy : worker.hasEnded = false := by simp [Worker.hasEnded, working]
      have range := (onScript.onCourse.workers _ _ found).range
      have fewer := onScript.attempts_lt positive counts found busy (range ▸ within)
      have inside : (move.worker + 1) * share ≤ runner.numThreads * share :=
        Nat.mul_le_mul_right share
          (onScript.onCourse.count ▸ (List.getElem?_eq_some_iff.mp found).1)
      have below : worker.next < runner.numThreads * share := by omega
      exact paced.replace found busy
        (Worker.pace_settle working (Nat.lt_of_lt_of_le fewer (bounded _ below)) _ _ _ _ _)
        (by rw [attempt_eq])

/-- Whatever the moves, the pool keeps to the script and the worker at a position comes as far as
the number of its own moves, by induction on the moves.
-/
theorem paced_run (onScript : OnScript workload name script runner share pool)
    (follows : Workload.Follows workload name script) (positive : runner.maxAttempts ≠ some 0)
    (counts : ∀ index < runner.numThreads * share,
      Settles script runner.maxAttempts index (count index))
    (bounded : ∀ index < runner.numThreads * share, count index ≤ most)
    (paced : pool.Paced most position moved) (moves : List Move)
    : OnScript workload name script runner share (pool.run runner moves)
      ∧ (pool.run runner moves).Paced most position
          (moved + moves.countP (·.worker = position)) := by
  induction moves generalizing pool moved with
  | nil => exact ⟨onScript, paced⟩
  | cons move rest ih =>
      obtain ⟨kept, further⟩ := ih (onScript.step follows positive move)
        (onScript.paced_step positive counts bounded paced move)
      refine ⟨kept, ?_⟩
      rw [List.countP_cons, Nat.add_comm (rest.countP _), ← Nat.add_assoc]
      simp only [decide_eq_true_eq]
      exact further

/-- A worker with enough moves for all attempts at all operations has ended. -/
theorem hasEnded_of_paced (onScript : OnScript workload name script runner share pool)
    (positive : runner.maxAttempts ≠ some 0)
    (counts : ∀ index < runner.numThreads * share,
      Settles script runner.maxAttempts index (count index))
    (bounded : ∀ index < runner.numThreads * share, count index ≤ most)
    (paced : pool.Paced most position moved)
    (enough : runner.numThreads * share * most + 2 ≤ moved)
    (found : pool.workers[position]? = some worker)
    : worker.hasEnded = true := by
  rcases paced worker found with ended | reached
  · exact ended
  · by_contra going
    have busy : worker.hasEnded = false := by simpa using going
    have inside : (position + 1) * share ≤ runner.numThreads * share :=
      Nat.mul_le_mul_right share
        (onScript.onCourse.count ▸ (List.getElem?_eq_some_iff.mp found).1)
    have course := (onScript.onCourse.workers position worker found).course busy
    have waits : (if worker.status = .waiting then 0 else 1) ≤ 1 := by split <;> omega
    -- A worker that goes on has not come further than all attempts at all operations.
    have slow : worker.next * most + worker.attempts ≤ runner.numThreads * share * most := by
      rcases Nat.lt_or_ge worker.next ((position + 1) * share) with within | done
      · have fewer := onScript.attempts_lt positive counts found busy within
        have few := bounded worker.next (by omega)
        calc worker.next * most + worker.attempts
            ≤ (worker.next + 1) * most := by rw [Nat.succ_mul]; omega
          _ ≤ runner.numThreads * share * most := Nat.mul_le_mul_right most (by omega)
      · rw [course.attempts_eq_zero done]
        refine Nat.mul_le_mul_right most ?_
        exact Nat.le_trans (course.le_stop (OnCourse.share_ordered position share)) inside
    unfold Worker.pace at reached
    omega

end Pool.OnScript

-----------------------------------------------------------------------------------------
-- Runs
-----------------------------------------------------------------------------------------

namespace ThreadRunner

variable {ω : Type} [Workload ω] {runner : ThreadRunner} {workload : ω} {numOperations : Nat}
  {server : Server} {name : String} {script : (index attempt : Nat) → Ending}

theorem start_onScript (runner : ThreadRunner) (workload : ω) (numOperations : Nat)
    (server : Server) (name : String) (script : (index attempt : Nat) → Ending)
    : (runner.start workload numOperations server).2.OnScript
        (runner.start workload numOperations server).2.workload name script runner
        (runner.opsPerThread numOperations) :=
  ⟨.start _ runner numOperations _ _, .start, fun _ => rfl⟩

/-- A schedule that gives each worker enough moves brings a workload to its end. -/
theorem poolAfter_hasEnded (positive : runner.maxAttempts ≠ some 0)
    (follows : Workload.Follows (runner.start workload numOperations server).2.workload name script)
    {count : Nat → Nat} {most : Nat}
    (counts : ∀ index < runner.numThreads * runner.opsPerThread numOperations,
      Settles script runner.maxAttempts index (count index))
    (bounded : ∀ index < runner.numThreads * runner.opsPerThread numOperations,
      count index ≤ most)
    {moves : List Move}
    (long : ∀ position < runner.numThreads,
      runner.numThreads * runner.opsPerThread numOperations * most + 2
        ≤ moves.countP (·.worker = position))
    : (runner.poolAfter moves workload numOperations server).result?.isSome := by
  refine Pool.result?_isSome_iff.mpr fun worker member => ?_
  obtain ⟨position, found⟩ := List.mem_iff_getElem?.mp member
  have paced : (runner.start workload numOperations server).2.Paced most position 0 :=
    fun worker _ => .inr (Nat.zero_le _)
  obtain ⟨onScript, reached⟩ :=
    (start_onScript runner workload numOperations server name script).paced_run follows positive
      counts bounded paced moves
  have inside : position < runner.numThreads :=
    onScript.onCourse.count ▸ (List.getElem?_eq_some_iff.mp found).1
  rw [Nat.zero_add] at reached
  exact onScript.hasEnded_of_paced positive counts bounded reached (long position inside) found

/-- Take a workload that was prepared and follows a script, in which each operation has an attempt
that is no error if their number is not limited. Each operation takes a number of attempts that
does not depend on the schedule. Every schedule with enough moves for each worker gives an answer,
and every answer and its log are the verdict of the script.
-/
theorem runMoves_scripted {connection : ConnectionConfig} {config : ThreadEnvConfig}
    (made : new? connection config = .ok runner) (workload : ω) (numOperations position : Nat)
    (state : RunState) (script : (index attempt : Nat) → Ending)
    (prepared : (runner.start workload numOperations state.server).1.1 = .ok ())
    (follows : Workload.Follows (runner.start workload numOperations state.server).2.workload
      (Workload.name workload) script)
    (unbounded : runner.maxAttempts = none →
      ∀ index < runner.numThreads * (numOperations / runner.numThreads),
        ∃ attempt, 0 < attempt ∧ script index attempt ≠ .failed)
    : ∃ count : Nat → Nat,
        (∀ index < runner.numThreads * (numOperations / runner.numThreads),
          Settles script runner.maxAttempts index (count index))
        ∧ (∃ budget, ∀ moves : List Move,
          (∀ worker < runner.numThreads, budget ≤ moves.countP (·.worker = worker)) →
            (runner.runMoves moves position workload numOperations state).1.isSome)
        ∧ ∀ moves result,
          (runner.runMoves moves position workload numOperations state).1 = some result →
            ∃ log,
              (runner.runMoves moves position workload numOperations state).2.2.events
                = state.events ++ (position, .prepare true)
                  :: log.map (position, .attempt ·) ++ [(position, .teardown)]
              ∧ Verdict script runner (Workload.name workload) count
                (numOperations / runner.numThreads) log result := by
  obtain ⟨_, _, positive⟩ := new?_eq_ok made
  have takes (index : Nat) : ∃ count,
      index < runner.numThreads * (numOperations / runner.numThreads) →
        Settles script runner.maxAttempts index count := by
    by_cases inside : index < runner.numThreads * (numOperations / runner.numThreads)
    · obtain ⟨count, settles⟩ := exists_settles positive fun none => unbounded none index inside
      exact ⟨count, fun _ => settles⟩
    · exact ⟨0, fun below => absurd below inside⟩
  choose count counts using takes
  refine ⟨count, counts, ?_, fun moves result returned => ?_⟩
  · let done := runner.numThreads * (numOperations / runner.numThreads)
    let most := ((List.range done).map count).sum
    refine ⟨done * most + 2, fun moves long => ?_⟩
    rw [(runMoves_of_prepared moves position prepared).1, Option.isSome_map]
    refine poolAfter_hasEnded positive follows counts (fun index inside => ?_) long
    exact List.le_sum_of_mem (List.mem_map_of_mem (List.mem_range.mpr inside))
  · obtain ⟨result_eq, _, events⟩ := runMoves_of_prepared moves position prepared
    rw [result_eq] at returned
    obtain ⟨handed, found, rfl⟩ := Option.map_eq_some_iff.mp returned
    have onScript : (runner.poolAfter moves workload numOperations state.server).OnScript _
        (Workload.name workload) script runner (numOperations / runner.numThreads) :=
      Pool.run_induction (start_onScript runner workload numOperations state.server _ script)
        (fun _ move onScript => onScript.step follows positive move) moves
    exact ⟨_, events, onScript.verdict positive counts found⟩

end ThreadRunner

-----------------------------------------------------------------------------------------
-- Workloads that are scripts
-----------------------------------------------------------------------------------------

namespace ScriptedWorkload

/-- Executing operations adds to what was tried, and changes nothing else, by induction on the
executions.
-/
theorem reaches_eq {start workload : ScriptedWorkload} {tried : List Nat}
    (reached : Workload.Reaches start workload tried)
    : workload = { start with tried := tried ++ start.tried } := by
  induction reached with
  | start => rfl
  | execute _ index elapsed connection server ih =>
      subst ih
      rfl

/-- A scripted workload follows its script, as far as it has not yet been tried. -/
theorem follows (start : ScriptedWorkload)
    : Workload.Follows start start.name
        fun index attempt => (start.outcome index (start.tried.count index + attempt)).ending where
  named reached := by
    rw [reaches_eq reached]
    rfl
  ends {workload tried} reached index elapsed connection server := by
    rw [reaches_eq reached]
    change (start.outcome index ((tried ++ start.tried).count index + 1)).ending = _
    rw [List.count_append, Nat.add_comm (tried.count index), Nat.add_assoc]

/-- A workload of five operations. The second one panics in its second attempt, and all others
succeed at once.
-/
def panicsLater : ScriptedWorkload where
  name := "panics_later"
  numOperations := 5
  refusal := none
  outcome index attempt :=
    if index = 1 then if attempt = 1 then .failed (.refusedPreparation "busy") else .panicked
    else .succeeded ⟨7, 10⟩

/-- How its attempts end. -/
def panicsLaterScript (index attempt : Nat) : Ending := (panicsLater.outcome index attempt).ending

/-- Two workers that may retry for ever come to the end of the workload in every schedule that is
long enough, and every answer is the verdict of its script.
-/
theorem runMoves_panicsLater
    : ∃ count : Nat → Nat,
        (∀ index < 2 * (5 / 2), Settles panicsLaterScript none index (count index))
        ∧ (∃ budget, ∀ moves : List Move,
          (∀ worker < 2, budget ≤ moves.countP (·.worker = worker)) →
            (ThreadRunner.runMoves ⟨.fakeDatabase, 2, none⟩ moves 0 panicsLater 5
              { server := .empty }).1.isSome)
        ∧ ∀ moves result,
          (ThreadRunner.runMoves ⟨.fakeDatabase, 2, none⟩ moves 0 panicsLater 5
            { server := .empty }).1 = some result →
            ∃ log, Verdict panicsLaterScript ⟨.fakeDatabase, 2, none⟩ "panics_later" count (5 / 2)
              log result := by
  have follows : Workload.Follows { panicsLater with isPrepared := true } "panics_later"
      panicsLaterScript := by
    have fresh : (fun index attempt =>
        (panicsLater.outcome index (([] : List Nat).count index + attempt)).ending)
        = panicsLaterScript := by
      funext index attempt
      rw [List.count_nil, Nat.zero_add]
      rfl
    rw [← fresh]
    exact ScriptedWorkload.follows { panicsLater with isPrepared := true }
  have unbounded (index : Nat)
      : ∃ attempt, 0 < attempt ∧ panicsLaterScript index attempt ≠ .failed := by
    by_cases second : index = 1
    · exact ⟨2, by decide, by simp [panicsLaterScript, panicsLater, second, Outcome.ending]⟩
    · exact ⟨1, by decide, by simp [panicsLaterScript, panicsLater, second, Outcome.ending]⟩
  have made : ThreadRunner.new? .fakeDatabase ⟨2, none⟩ = .ok ⟨.fakeDatabase, 2, none⟩ := rfl
  obtain ⟨count, counts, ends, answers⟩ := ThreadRunner.runMoves_scripted made panicsLater 5 0
    { server := .empty } panicsLaterScript rfl follows fun _ index _ => unbounded index
  refine ⟨count, counts, ends, fun moves result returned => ?_⟩
  obtain ⟨log, _, verdict⟩ := answers moves result returned
  exact ⟨log, verdict⟩

end ScriptedWorkload

end LineageLoad
