import LineageLoad.Proofs.Runner.Loads
import LineageLoad.Runner.Watched

/-!
What one workload goes through from its preparation to its end, for every order in which the workers
move: what happens to it, what it is asked for, and what is left of it.
-/

namespace LineageLoad

variable {ω : Type} [Workload ω] {runner : ThreadRunner} {moves : List Move} {workload spent : ω}
  {numOperations : Nat} {server : Server} {own : List RunEvent} {result : Except BenchError Report}

/-- What happens to a workload that is prepared and whose pool comes to this. -/
def Pool.events (pool : Pool ω) : List RunEvent :=
  .prepare true :: pool.log.map .attempt ++ [.teardown]

/-- The ways of a workload through a run: what happened to it, what came of it, and what is left of
it. It is torn down just if it was prepared, after the last attempt, when all workers have ended.
-/
inductive Stage (runner : ThreadRunner) (moves : List Move) (workload : ω) (numOperations : Nat)
    (server : Server) : List RunEvent → Except BenchError Report → ω → Prop
  | refused {error} (unprepared : (runner.start workload numOperations server).1.1 = .error error)
    : Stage runner moves workload numOperations server [.prepare false] (.error error)
        (runner.start workload numOperations server).2.workload
  | broken {error} (prepared : (runner.start workload numOperations server).1.1 = .ok ())
    (ended : ∀ worker ∈ (runner.poolAfter moves workload numOperations server).workers,
      worker.hasEnded = true)
    (handed : (runner.poolAfter moves workload numOperations server).result?
      = some (.error error))
    : Stage runner moves workload numOperations server
        (runner.poolAfter moves workload numOperations server).events (.error error)
        (Workload.teardown (runner.poolAfter moves workload numOperations server).workload)
  | finished {stats} (prepared : (runner.start workload numOperations server).1.1 = .ok ())
    (ended : ∀ worker ∈ (runner.poolAfter moves workload numOperations server).workers,
      worker.hasEnded = true)
    (handed : (runner.poolAfter moves workload numOperations server).result? = some (.ok stats))
    : Stage runner moves workload numOperations server
        (runner.poolAfter moves workload numOperations server).events
        (.ok (stats.report (Workload.name workload)))
        (Workload.teardown (runner.poolAfter moves workload numOperations server).workload)

namespace ThreadRunner

variable {position : Nat} {state : RunState}

theorem runMoves_workload_of_refused {error : BenchError}
    (refused : (runner.start workload numOperations state.server).1.1 = .error error)
    : (runner.runMoves moves position workload numOperations state).2.1
        = (runner.start workload numOperations state.server).2.workload := by
  unfold runMoves runWorkload
  generalize runner.start workload numOperations state.server = started at refused
  obtain ⟨⟨prepared, notes⟩, pool⟩ := started
  cases refused
  rfl

theorem runMoves_workload_of_prepared
    (prepared : (runner.start workload numOperations state.server).1.1 = .ok ())
    : (runner.runMoves moves position workload numOperations state).2.1
        = Workload.teardown
          (runner.poolAfter moves workload numOperations state.server).workload := by
  unfold runMoves runWorkload poolAfter
  generalize runner.start workload numOperations state.server = started at prepared
  obtain ⟨⟨result, notes⟩, pool⟩ := started
  cases prepared
  dsimp only [bind, pure]
  cases (pool.run runner moves).result? with
  | none => rfl
  | some result => cases result <;> rfl

/-- A workload that has a result went through a stage, and nothing else happened. -/
theorem runMoves_stage
    (answered : (runner.runMoves moves position workload numOperations state).1 = some result)
    : ∃ own, (runner.runMoves moves position workload numOperations state).2.2.events
        = state.events ++ own.map (position, ·)
      ∧ Stage runner moves workload numOperations state.server own result
        (runner.runMoves moves position workload numOperations state).2.1 := by
  cases prepared : (runner.start workload numOperations state.server).1.1 with
  | error error =>
      obtain ⟨answer, events⟩ := runMoves_of_refused moves position prepared
      cases answer.symm.trans answered
      rw [runMoves_workload_of_refused prepared]
      exact ⟨[.prepare false], events, .refused prepared⟩
  | ok =>
      obtain ⟨answer, _, events⟩ := runMoves_of_prepared moves position prepared
      rw [runMoves_workload_of_prepared prepared]
      have own : (runner.runMoves moves position workload numOperations state).2.2.events
          = state.events ++ (runner.poolAfter moves workload numOperations
            state.server).events.map (position, ·) := by
        simp [events, Pool.events]
      obtain ⟨handed, given, rfl⟩ := Option.map_eq_some_iff.mp (answer.symm.trans answered)
      have ended := Pool.result?_isSome_iff.mp (Option.isSome_iff_exists.mpr ⟨handed, given⟩)
      cases handed with
      | error error => exact ⟨_, own, .broken prepared ended given⟩
      | ok stats => exact ⟨_, own, .finished prepared ended given⟩

end ThreadRunner

-----------------------------------------------------------------------------------------
-- What a workload is asked for
-----------------------------------------------------------------------------------------

/-- What a workload is asked for when something happens to it. -/
def RunEvent.lifeStep? : RunEvent → Option LifeStep
  | .prepare succeeded => some (.prepared succeeded)
  | .attempt made => some (.executed made.index)
  | .teardown => some .tornDown
  | .report _ => none

/-- The record of a workload goes on with the attempts of its pool. -/
def Pool.Records (before : List LifeStep) (pool : Pool (Watched ω)) : Prop :=
  pool.workload.record = before ++ pool.log.map (.executed ·.index)

theorem Pool.Records.step {before : List LifeStep} {pool : Pool (Watched ω)}
    (records : pool.Records before) (move : Move)
    : (pool.step runner move).Records before := by
  have stepped := step_cases runner pool move
  generalize pool.step runner move = next at stepped ⊢
  cases stepped with
  | idle => exact records
  | connected => exact records
  | finished => exact records
  | attempted =>
      rw [Records, attempt_log, List.map_append, ← List.append_assoc, ← records, attempt_eq]
      rfl

/-- The record that a workload keeps tells what happened to it. -/
theorem Stage.record {workload spent : Watched ω}
    (stage : Stage runner moves workload numOperations server own result spent)
    : spent.record = workload.record ++ own.filterMap RunEvent.lifeStep? := by
  have begun : (runner.start workload numOperations server).2.workload.record
      = workload.record
        ++ [.prepared (runner.start workload numOperations server).1.1.isOk] := rfl
  have executed (prepared : (runner.start workload numOperations server).1.1 = .ok ())
      : (Workload.teardown (runner.poolAfter moves workload numOperations server).workload).record
        = workload.record ++ (runner.poolAfter moves workload numOperations
          server).events.filterMap RunEvent.lifeStep? := by
    have started : (runner.start workload numOperations server).2.Records
        (workload.record ++ [.prepared true]) := by
      rw [Pool.Records, begun, prepared]
      exact (List.append_nil _).symm
    have ran : (runner.poolAfter moves workload numOperations server).Records _ :=
      Pool.run_induction started (fun _ move records => records.step move) moves
    refine (congrArg (· ++ [.tornDown]) ran).trans ?_
    simp [Pool.events, RunEvent.lifeStep?, List.filterMap_append, List.filterMap_map,
      Function.comp_def]
  cases stage with
  | refused unprepared =>
      rw [begun, unprepared]
      rfl
  | broken prepared => exact executed prepared
  | finished prepared => exact executed prepared

-----------------------------------------------------------------------------------------
-- Workloads of generators
-----------------------------------------------------------------------------------------

section

variable {κ γ : Type}

/-- An attempt at an item that is held issues its call: it meets neither a workload that is not
prepared nor an index that is out of range.
-/
def Outcome.IsIssued (outcome : Outcome) : Prop :=
  (∀ name, outcome ≠ .failed (.notSetUp name))
  ∧ ∀ name index held, outcome ≠ .failed (.indexOutOfRange name index held)

/-- A pool whose workload holds an item for each operation of its workers. -/
structure Pool.Stocked (numOperations : Nat) (pool : Pool (GeneratedWorkload κ γ)) : Prop where
  prepared : pool.workload.isPrepared = true
  enough : numOperations ≤ pool.workload.items.length
  within : ∀ worker ∈ pool.workers, worker.stop ≤ numOperations
  issued : ∀ attempt ∈ pool.log, attempt.outcome.IsIssued

theorem Worker.settle_stop (worker : Worker) (maxAttempts : Option Nat) (workload : String)
    (outcome : Outcome) (totalDone : Nat) (now : Instant)
    : (worker.settle maxAttempts workload outcome totalDone now).stop = worker.stop := by
  cases outcome with
  | succeeded op => rfl
  | panicked => rfl
  | failed error =>
      unfold settle
      dsimp only
      split <;> rfl

/-- A worker of a stocked pool may be replaced by one with the same part of the operations. -/
theorem Pool.Stocked.within_set {pool : Pool (GeneratedWorkload κ γ)}
    (stocked : pool.Stocked numOperations) {position : Nat} {worker replaced : Worker}
    (found : pool.workers[position]? = some worker) (stop : replaced.stop = worker.stop)
    : ∀ other ∈ pool.workers.set position replaced, other.stop ≤ numOperations :=
  forall_mem_set stocked.within (stop ▸ stocked.within worker (List.mem_of_getElem? found))

variable [Generator κ] [WordSource γ]

theorem GeneratedWorkload.execute_isIssued {σ : Type} {workload : GeneratedWorkload κ γ}
    (prepared : workload.isPrepared = true) {index : Nat} (inside : index < workload.items.length)
    (elapsed : Nat) (store : Store σ) (state : σ)
    : (Workload.execute workload index elapsed store state).1.IsIssued
      ∧ (Workload.execute workload index elapsed store state).2.1 = workload := by
  refine ⟨?_, rfl⟩
  have issued : workload.execute index store state
      = (((store.serve workload.items[index].call state).1.mapError BenchError.store).map
          fun _ => workload.items[index].bytes,
        (store.serve workload.items[index].call state).2) := by
    unfold execute
    rw [prepared, List.getElem?_eq_getElem inside]
    rfl
  dsimp only [Workload.execute]
  rw [issued]
  cases (store.serve workload.items[index].call state).1 with
  | ok reply => refine ⟨fun _ same => ?_, fun _ _ _ same => ?_⟩ <;> cases same
  | error error => refine ⟨fun _ same => ?_, fun _ _ _ same => ?_⟩ <;> cases same

/-- A preparation that succeeds provides an item for each operation, and one that fails keeps the
items that were held before.
-/
theorem GeneratedWorkload.prepare_items {σ : Type} (workload : GeneratedWorkload κ γ)
    (store : Store σ) (state : σ)
    : ((workload.prepare store state).1.1 = .ok ()
        ∧ (workload.prepare store state).2.1.isPrepared = true
        ∧ (workload.prepare store state).2.1.items.length = workload.numOperations)
      ∨ (∃ error, (workload.prepare store state).1.1 = .error error)
        ∧ (workload.prepare store state).2.1.items = workload.items := by
  unfold prepare
  split
  · next none => exact .inl ⟨rfl, rfl, none.symm⟩
  · obtain ⟨result, p⟩ := (Generator.generate workload.generator store
      workload.numOperations).run
        { store := state, source := workload.source, notes := [] : Preparation σ γ }
    cases result with
    | error error => exact .inr ⟨⟨error, rfl⟩, rfl⟩
    | ok items =>
        dsimp only
        split
        · next length => exact .inl ⟨rfl, rfl, length⟩
        · exact .inr ⟨⟨_, rfl⟩, rfl⟩

/-- Every move keeps a pool stocked, by the cases of a step. -/
theorem Pool.Stocked.step {pool : Pool (GeneratedWorkload κ γ)}
    (stocked : pool.Stocked numOperations) (move : Move)
    : (pool.step runner move).Stocked numOperations := by
  have stepped := step_cases runner pool move
  generalize pool.step runner move = next at stepped ⊢
  cases stepped with
  | idle => exact stocked
  | connected found => exact { stocked with within := stocked.within_set found rfl }
  | finished found => exact { stocked with within := stocked.within_set found rfl }
  | @attempted worker connection found working within =>
      have stop := stocked.within worker (List.mem_of_getElem? found)
      have inside := Nat.lt_of_lt_of_le within (Nat.le_trans stop stocked.enough)
      obtain ⟨issued, kept⟩ := GeneratedWorkload.execute_isIssued stocked.prepared inside
        move.elapsed (Server.store connection) pool.server
      have log : (pool.attempt runner move worker connection).log = _ :=
        attempt_log pool move worker connection
      rw [attempt_eq] at log ⊢
      refine ⟨kept ▸ stocked.prepared, kept ▸ stocked.enough,
        stocked.within_set found (Worker.settle_stop ..), fun attempt member => ?_⟩
      rw [log] at member
      rcases List.mem_append.mp member with earlier | last
      · exact stocked.issued attempt earlier
      · cases List.mem_singleton.mp last
        exact issued

/-- No worker gets a part beyond the operations, as each one gets the share of the quotient. -/
theorem ThreadRunner.stop_le {worker : Worker} (member : worker ∈ runner.workers numOperations)
    : worker.stop ≤ numOperations := by
  obtain ⟨position, inside, rfl⟩ := List.mem_map.mp member
  have number : position + 1 ≤ runner.numThreads := List.mem_range.mp inside
  exact Nat.le_trans (Nat.mul_le_mul_right _ number) (Nat.mul_div_le _ _)

theorem Pool.Stocked.start {workload : GeneratedWorkload κ γ}
    (prepared : (runner.start workload workload.numOperations server).1.1 = .ok ())
    : (runner.start workload workload.numOperations server).2.Stocked workload.numOperations := by
  rcases workload.prepare_items (Server.store (server.connect runner.connection).1)
    (server.connect runner.connection).2 with ⟨_, ready, length⟩ | ⟨⟨error, refused⟩, _⟩
  · exact ⟨ready, Nat.le_of_eq length.symm, fun _ => runner.stop_le, fun _ member => nomatch member⟩
  · cases prepared.symm.trans refused

/-- Every attempt at a workload of a generator issues a call, whatever the moves. -/
theorem ThreadRunner.poolAfter_isIssued {workload : GeneratedWorkload κ γ}
    (prepared : (runner.start workload workload.numOperations server).1.1 = .ok ())
    : ∀ attempt ∈ (runner.poolAfter moves workload workload.numOperations server).log,
      attempt.outcome.IsIssued := by
  have stocked : (runner.poolAfter moves workload workload.numOperations server).Stocked _ :=
    Pool.run_induction (Pool.Stocked.start prepared) (fun _ move stocked => stocked.step move) moves
  exact stocked.issued

/-- No items are left of a workload of a generator that began without any. -/
theorem Stage.items {workload spent : GeneratedWorkload κ γ} (fresh : workload.items = [])
    (stage : Stage runner moves workload numOperations server own result spent)
    : spent.items = [] := by
  cases stage with
  | refused unprepared =>
      rcases workload.prepare_items (Server.store (server.connect runner.connection).1)
        (server.connect runner.connection).2 with ⟨prepared, _⟩ | ⟨_, kept⟩
      · cases prepared.symm.trans unprepared
      · exact kept.trans fresh
  | broken => rfl
  | finished => rfl

end

end LineageLoad
