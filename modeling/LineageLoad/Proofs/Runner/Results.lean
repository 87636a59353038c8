import LineageLoad.Proofs.Runner.Courses

/-!
What a pool hands over when all its workers have ended, and what a run of one workload makes of it,
for every order in which the workers move.
-/

namespace LineageLoad

namespace Pool

variable {ω : Type} {pool : Pool ω}

/-- Workers that have ended either all finished, or there is a first one that failed. Its error is
what they hand over, by induction on the workers.
-/
theorem merge_cases (stats : ThreadStats) {workers : List Worker}
    (ended : ∀ worker ∈ workers, worker.hasEnded = true)
    : (∃ total, merge stats workers = some (.ok total)
        ∧ ∀ worker ∈ workers, worker.status = .finished)
      ∨ ∃ before worker after error, workers = before ++ worker :: after
        ∧ worker.status = .failed error ∧ merge stats workers = some (.error error)
        ∧ ∀ earlier ∈ before, earlier.status = .finished := by
  induction workers generalizing stats with
  | nil => exact .inl ⟨stats, rfl, by simp⟩
  | cons worker rest ih =>
      obtain ⟨head, tail⟩ := List.forall_mem_cons.mp ended
      cases status : worker.status with
      | waiting => simp [Worker.hasEnded, status] at head
      | working connection => simp [Worker.hasEnded, status] at head
      | finished =>
          have merged : merge stats (worker :: rest) = merge (stats.merge worker.stats) rest := by
            simp only [merge, Worker.result?, status]
          rw [merged]
          rcases ih (stats.merge worker.stats) tail with ⟨total, all, finished⟩ | failed
          · exact .inl ⟨total, all, List.forall_mem_cons.mpr ⟨status, finished⟩⟩
          · obtain ⟨before, other, after, error, rfl, failed, handed, finished⟩ := failed
            exact .inr ⟨worker :: before, other, after, error, rfl, failed, handed,
              List.forall_mem_cons.mpr ⟨status, finished⟩⟩
      | failed error =>
          refine .inr ⟨[], worker, rest, error, rfl, status, ?_, by simp⟩
          simp only [merge, Worker.result?, status]

theorem result?_isSome_iff
    : pool.result?.isSome ↔ ∀ worker ∈ pool.workers, worker.hasEnded = true := by
  rw [← List.all_eq_true]
  constructor
  · intro some
    by_cases ended : pool.hasEnded = true
    · exact ended
    · simp [result?, ended] at some
  · intro ended
    have : pool.result? = merge .new pool.workers := if_pos ended
    rw [this]
    rcases merge_cases .new (List.all_eq_true.mp ended) with ⟨total, handed, _⟩ | failed
    · simp [handed]
    · obtain ⟨_, _, _, _, _, _, handed, _⟩ := failed
      simp [handed]

/-- A pool hands over statistics if all its workers have finished. -/
theorem result?_eq_ok {total : ThreadStats} (handed : pool.result? = some (.ok total))
    : merge .new pool.workers = some (.ok total)
      ∧ ∀ worker ∈ pool.workers, worker.status = .finished := by
  have ended := result?_isSome_iff.mp (by rw [handed]; rfl)
  have merged : merge .new pool.workers = some (.ok total) :=
    (if_pos (List.all_eq_true.mpr ended)).symm.trans handed
  refine ⟨merged, ?_⟩
  rcases merge_cases .new ended with ⟨_, _, finished⟩ | failed
  · exact finished
  · obtain ⟨_, _, _, _, _, _, failed, _⟩ := failed
    cases merged.symm.trans failed

/-- A pool hands over the error of the first worker that failed. -/
theorem result?_eq_error {error : BenchError} (handed : pool.result? = some (.error error))
    : ∃ before worker after, pool.workers = before ++ worker :: after
      ∧ worker.status = .failed error ∧ ∀ earlier ∈ before, earlier.status = .finished := by
  have ended := result?_isSome_iff.mp (by rw [handed]; rfl)
  have merged : merge .new pool.workers = some (.error error) :=
    (if_pos (List.all_eq_true.mpr ended)).symm.trans handed
  rcases merge_cases .new ended with ⟨_, all, _⟩ | failed
  · cases merged.symm.trans all
  · obtain ⟨before, worker, after, other, split, failed, handed, finished⟩ := failed
    cases merged.symm.trans handed
    exact ⟨before, worker, after, split, failed, finished⟩

variable {named : String → Prop} {runner : ThreadRunner} {share : Nat}

theorem OnCourse.finished (onCourse : OnCourse named runner share pool)
    (finished : ∀ worker ∈ pool.workers, worker.status = .finished) {position : Nat}
    (inside : position < runner.numThreads)
    : Course runner.maxAttempts (position * share) ((position + 1) * share)
        ((position + 1) * share) 0 (ownAttempts position pool.log) := by
  have found := List.getElem?_eq_getElem (onCourse.count ▸ inside)
  exact (onCourse.workers position _ found).course_of_finished
    (finished _ (List.mem_of_getElem? found))

/-- Workers that have finished completed as many operations as all shares have together. -/
theorem OnCourse.countP_hasSucceeded (onCourse : OnCourse named runner share pool)
    (finished : ∀ worker ∈ pool.workers, worker.status = .finished)
    : pool.log.countP (·.hasSucceeded) = runner.numThreads * share := by
  have part : ∀ position ∈ List.range runner.numThreads,
      (ownAttempts position pool.log).countP (·.hasSucceeded) = share := by
    intro position member
    have successes := (onCourse.finished finished (List.mem_range.mp member)).successes
    rw [List.countP_eq_length_filter, ← List.length_map (·.index), successes, List.length_range',
      ← Nat.sub_mul]
    simp
  have all := (flatMap_ownAttempts_perm pool.log runner.numThreads).countP_eq (·.hasSucceeded)
  rw [List.filter_eq_self.mpr fun attempt member => decide_eq_true (onCourse.owned attempt member),
    List.countP_flatMap, Function.comp_def, List.map_congr_left part,
    List.map_const', List.length_range, List.sum_replicate_nat] at all
  exact all.symm

/-- The statistics that a pool hands over count all attempts of its log. -/
theorem OnCourse.tallies (onCourse : OnCourse named runner share pool) {total : ThreadStats}
    (handed : pool.result? = some (.ok total))
    : total.Tallies pool.log := by
  have merged := (result?_eq_ok handed).1
  have tallies := merge_tallies (ownAttempts · pool.log) .new
    (fun position worker found => (onCourse.workers position worker found).tallies) merged
  rw [onCourse.count, List.nil_append] at tallies
  refine (tallies.perm (flatMap_ownAttempts_perm pool.log runner.numThreads)).perm ?_
  rw [List.filter_eq_self.mpr fun attempt member => decide_eq_true (onCourse.owned attempt member)]

end Pool

namespace ThreadRunner

variable {ω : Type} [Workload ω]

/-- A runner has a thread, and an attempt for each operation. -/
theorem new?_eq_ok {connection : ConnectionConfig} {config : ThreadEnvConfig}
    {runner : ThreadRunner} (made : new? connection config = .ok runner)
    : runner = ⟨connection, config.numThreads, config.maxAttempts⟩
      ∧ 0 < runner.numThreads ∧ runner.maxAttempts ≠ some 0 := by
  unfold new? at made
  split at made
  · cases made
  · next threads =>
      split at made
      · cases made
      · next attempts =>
          cases made
          exact ⟨rfl, Nat.pos_of_ne_zero threads, attempts⟩

/-- Runs one workload with the given moves of its workers. -/
def runMoves (runner : ThreadRunner) (moves : List Move) (position : Nat) (workload : ω)
    (numOperations : Nat) (state : RunState)
    : Option (Except BenchError Report) × ω × RunState :=
  runner.runWorkload (m := Id) (fun pool => pool.run runner moves) position workload numOperations
    state

/-- The pool of a workload that was prepared, after the given moves. -/
def poolAfter (runner : ThreadRunner) (moves : List Move) (workload : ω) (numOperations : Nat)
    (server : Server) : Pool ω :=
  (runner.start workload numOperations server).2.run runner moves

/-- Whatever the moves, the workers of a prepared workload are on their courses. -/
theorem poolAfter_onCourse {runner : ThreadRunner} (positive : runner.maxAttempts ≠ some 0)
    (moves : List Move) (workload : ω) (numOperations : Nat) (server : Server)
    : (runner.poolAfter moves workload numOperations server).OnCourse (fun _ => True) runner
        (runner.opsPerThread numOperations) :=
  Pool.run_induction (.start _ runner numOperations _ _)
    (fun _ move onCourse => onCourse.step positive trivial move) moves

variable {runner : ThreadRunner} {workload : ω} {numOperations : Nat} {state : RunState}

theorem runMoves_of_refused {error : BenchError} (moves : List Move) (position : Nat)
    (refused : (runner.start workload numOperations state.server).1.1 = .error error)
    : (runner.runMoves moves position workload numOperations state).1 = some (.error error)
      ∧ (runner.runMoves moves position workload numOperations state).2.2.events
        = state.events ++ [(position, .prepare false)] := by
  unfold runMoves runWorkload
  generalize runner.start workload numOperations state.server = started at refused
  obtain ⟨⟨prepared, notes⟩, pool⟩ := started
  cases refused
  exact ⟨rfl, rfl⟩

/-- A refused preparation ends the run with the server that it leaves. -/
theorem runMoves_server_of_refused {error : BenchError} (moves : List Move) (position : Nat)
    (refused : (runner.start workload numOperations state.server).1.1 = .error error)
    : (runner.runMoves moves position workload numOperations state).2.2.server
        = (runner.start workload numOperations state.server).2.server := by
  unfold runMoves runWorkload
  generalize runner.start workload numOperations state.server = started at refused
  obtain ⟨⟨prepared, notes⟩, pool⟩ := started
  cases refused
  rfl

/-- A workload that was prepared hands over what its pool does, and the run keeps the server and the
log.
-/
theorem runMoves_of_prepared (moves : List Move) (position : Nat)
    (prepared : (runner.start workload numOperations state.server).1.1 = .ok ())
    : (runner.runMoves moves position workload numOperations state).1
        = (runner.poolAfter moves workload numOperations state.server).result?.map
            (·.map (·.report (Workload.name workload)))
      ∧ (runner.runMoves moves position workload numOperations state).2.2.server
        = (runner.poolAfter moves workload numOperations state.server).server
      ∧ (runner.runMoves moves position workload numOperations state).2.2.events
        = state.events ++ (position, .prepare true)
          :: (runner.poolAfter moves workload numOperations state.server).log.map
            (position, .attempt ·) ++ [(position, .teardown)] := by
  unfold runMoves runWorkload poolAfter
  generalize runner.start workload numOperations state.server = started at prepared
  obtain ⟨⟨result, notes⟩, pool⟩ := started
  cases prepared
  dsimp only [bind, pure]
  cases (pool.run runner moves).result? with
  | none => exact ⟨rfl, rfl, rfl⟩
  | some result =>
      cases result with
      | ok stats => exact ⟨rfl, rfl, rfl⟩
      | error error => exact ⟨rfl, rfl, rfl⟩

/-- A run that hands over a report prepared its workload, and the report is that of the statistics
of its pool.
-/
theorem runMoves_eq_ok {moves : List Move} {position : Nat} {report : Report}
    (returned : (runner.runMoves moves position workload numOperations state).1
      = some (.ok report))
    : (runner.start workload numOperations state.server).1.1 = .ok ()
      ∧ ∃ stats, (runner.poolAfter moves workload numOperations state.server).result?
          = some (.ok stats)
        ∧ stats.report (Workload.name workload) = report := by
  cases prepared : (runner.start workload numOperations state.server).1.1 with
  | error error => cases (runMoves_of_refused moves position prepared).1.symm.trans returned
  | ok =>
      rw [(runMoves_of_prepared moves position prepared).1] at returned
      obtain ⟨result, handed, mapped⟩ := Option.map_eq_some_iff.mp returned
      cases result with
      | error error => cases mapped
      | ok stats => exact ⟨rfl, stats, handed, Except.ok.inj mapped⟩

end ThreadRunner

end LineageLoad
