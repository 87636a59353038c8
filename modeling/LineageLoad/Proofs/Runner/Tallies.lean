import Mathlib.Algebra.GroupWithZero.Nat
import LineageLoad.Proofs.Runner.Steps

/-!
What the statistics of a worker say of the attempts behind them, and what merged statistics say of
the log of a whole pool.
-/

namespace LineageLoad

/-- The operations that the attempts of a log completed. -/
def completedOps (log : List Attempt) : List OpStats := log.filterMap (·.outcome.op?)

/-- The counts are those of the attempts in a log: the successful and the failed ones, and what the
completed operations moved and took.
-/
structure ThreadStats.Tallies (stats : ThreadStats) (log : List Attempt) : Prop where
  done : stats.done = log.countP (·.hasSucceeded)
  failures : stats.failures = log.countP (·.hasFailed)
  bytes : stats.bytes = ((completedOps log).map (·.bytes)).sum
  latency : stats.latency = ((completedOps log).map (·.elapsed)).sum

namespace ThreadStats.Tallies

variable {stats other : ThreadStats} {log more : List Attempt} {attempt : Attempt}

theorem new
    : ThreadStats.new.Tallies [] :=
  ⟨rfl, rfl, rfl, rfl⟩

theorem startAt (tallies : stats.Tallies log) (instant : Instant)
    : (stats.startAt instant).Tallies log :=
  ⟨tallies.done, tallies.failures, tallies.bytes, tallies.latency⟩

theorem stopAt (tallies : stats.Tallies log) (instant : Instant)
    : (stats.stopAt instant).Tallies log :=
  ⟨tallies.done, tallies.failures, tallies.bytes, tallies.latency⟩

theorem update {op : OpStats} (tallies : stats.Tallies log)
    (succeeded : attempt.outcome = .succeeded op) (totalDone : Nat)
    : (stats.update op totalDone).Tallies (log ++ [attempt]) where
  done := by
    simp [tallies.done, Attempt.hasSucceeded, succeeded, Outcome.ending]
  failures := by
    simp [tallies.failures, Attempt.hasFailed, succeeded, Outcome.ending]
  bytes := by
    simp [tallies.bytes, completedOps, succeeded, Outcome.op?]
  latency := by
    simp [tallies.latency, completedOps, succeeded, Outcome.op?]

theorem recordFailure {error : BenchError} (tallies : stats.Tallies log)
    (failed : attempt.outcome = .failed error)
    : stats.recordFailure.Tallies (log ++ [attempt]) where
  done := by
    simp [ThreadStats.recordFailure, tallies.done, Attempt.hasSucceeded, failed, Outcome.ending]
  failures := by
    simp [ThreadStats.recordFailure, tallies.failures, Attempt.hasFailed, failed, Outcome.ending]
  bytes := by
    simp [ThreadStats.recordFailure, tallies.bytes, completedOps, failed, Outcome.op?]
  latency := by
    simp [ThreadStats.recordFailure, tallies.latency, completedOps, failed, Outcome.op?]

/-- A panic is not counted at all. -/
theorem panicked (tallies : stats.Tallies log) (panicked : attempt.outcome = .panicked)
    : stats.Tallies (log ++ [attempt]) where
  done := by simp [tallies.done, Attempt.hasSucceeded, panicked, Outcome.ending]
  failures := by simp [tallies.failures, Attempt.hasFailed, panicked, Outcome.ending]
  bytes := by simp [tallies.bytes, completedOps, panicked, Outcome.op?]
  latency := by simp [tallies.latency, completedOps, panicked, Outcome.op?]

theorem merge (tallies : stats.Tallies log) (others : other.Tallies more)
    : (stats.merge other).Tallies (log ++ more) where
  done := by simp [ThreadStats.merge, tallies.done, others.done]
  failures := by simp [ThreadStats.merge, tallies.failures, others.failures]
  bytes := by simp [ThreadStats.merge, tallies.bytes, others.bytes, completedOps]
  latency := by simp [ThreadStats.merge, tallies.latency, others.latency, completedOps]

theorem perm (tallies : stats.Tallies log) (same : log.Perm more)
    : stats.Tallies more where
  done := tallies.done.trans (same.countP_eq _)
  failures := tallies.failures.trans (same.countP_eq _)
  bytes := tallies.bytes.trans ((same.filterMap _).map _).sum_nat
  latency := tallies.latency.trans ((same.filterMap _).map _).sum_nat

end ThreadStats.Tallies

/-- The attempts of the first workers, one worker after the other, are the attempts of the log that
they made, by induction on their number.
-/
theorem flatMap_ownAttempts_perm (log : List Attempt) (count : Nat)
    : ((List.range count).flatMap (ownAttempts · log)).Perm
        (log.filter (·.worker < count)) := by
  induction count with
  | zero => simp
  | succ count ih =>
      -- One worker more splits its attempts off those of all the workers before.
      have earlier : (log.filter (·.worker < count + 1)).filter (·.worker < count)
          = log.filter (·.worker < count) := by
        rw [List.filter_filter]
        refine List.filter_congr fun attempt _ => ?_
        rw [← Bool.decide_and]
        exact decide_eq_decide.mpr (by omega)
      have last
          : (log.filter (·.worker < count + 1)).filter (fun attempt => !(attempt.worker < count))
          = ownAttempts count log := by
        rw [List.filter_filter]
        refine List.filter_congr fun attempt _ => ?_
        rw [← decide_not, ← Bool.decide_and]
        exact decide_eq_decide.mpr (by omega)
      have split := List.filter_append_perm
        (fun attempt : Attempt => decide (attempt.worker < count))
        (log.filter (·.worker < count + 1))
      rw [earlier, last] at split
      rw [List.range_succ, List.flatMap_append, List.flatMap_singleton]
      exact (ih.append_right _).trans split

/-- The workers that have finished hand over counts that add up to those of all their attempts, by
induction on the workers.
-/
theorem Pool.merge_tallies {stats total : ThreadStats} {before : List Attempt}
    {workers : List Worker} (own : Nat → List Attempt) (start : stats.Tallies before)
    (tallies : ∀ position (worker : Worker), workers[position]? = some worker →
      worker.stats.Tallies (own position))
    (merged : merge stats workers = some (.ok total))
    : total.Tallies (before ++ (List.range workers.length).flatMap own) := by
  induction workers generalizing stats before own with
  | nil =>
      cases merged
      simpa using start
  | cons worker rest ih =>
      unfold merge at merged
      split at merged
      · cases merged
      · cases merged
      · next other finished =>
          have handed : other = worker.stats := by
            unfold Worker.result? at finished
            split at finished <;> cases finished
            rfl
          subst handed
          have rest := ih (fun position => own (position + 1))
            (start.merge (tallies 0 worker rfl))
            (fun position worker found => tallies (position + 1) worker found) merged
          rw [List.length_cons, List.range_succ_eq_map, List.flatMap_cons, List.flatMap_map,
            ← List.append_assoc]
          exact rest

end LineageLoad
