import LineageLoad.Proofs.Runner.Loads
import LineageLoad.Proofs.Workload.Preparation

/-!
Runs of whole benchmarks against the database of one name: no attempt fails, so only a missing
precondition ends a run early, and every workload that finishes changes the contents by what its
load does. This holds for every order of the workers' moves.
-/

namespace LineageLoad

/-- What a workload that has finished did: all operations that the workers share out, without a
failure, and with exactly the changes of its load.
-/
structure Finishes (runner : ThreadRunner) (load : Load Sampler) (numOperations : Nat)
    (before after : Database) (report : Report) : Prop where
  failures : report.failures = 0
  operations : report.operations = runner.numThreads * (numOperations / runner.numThreads)
  changes
    : load.Changes (load.missing numOperations before)
        (runner.numThreads * (numOperations / runner.numThreads)) before after

-----------------------------------------------------------------------------------------
-- One workload
-----------------------------------------------------------------------------------------

namespace ThreadRunner

variable {runner : ThreadRunner} {workload : LoadWorkload} {numOperations : Nat} {name : String}
  {db : Database} {state : RunState}

/-- A workload that cannot be prepared lacks a precondition, and the pool of one that can is
serving.
-/
theorem start_cases (shared : runner.connection = .inMemory name)
    (count : workload.numOperations = numOperations) {server : Server}
    (holds : server.Holds name db) (sound : db.Sound)
    : (∃ error, (runner.start workload numOperations server).1.1 = .error error
        ∧ error.category = .failedPrecondition)
      ∨ (runner.start workload numOperations server).1.1 = .ok ()
        ∧ ∃ calls connection first,
          workload.generator.Changes (workload.generator.missing numOperations db) 0 db first
          ∧ runner.numThreads * runner.opsPerThread numOperations ≤ calls.length
          ∧ (runner.start workload numOperations server).2.Serving workload.generator calls name
            connection first runner (runner.opsPerThread numOperations) := by
  have reaches := holds.connect
  unfold start
  rw [shared]
  rcases workload.prepare_cases reaches sound with refused | ⟨prepared, first, reached, kept, rest⟩
  · exact .inl refused
  · obtain ⟨length, isOpen⟩ := rest
    refine .inr ⟨prepared, _, _, first, count ▸ isOpen.changes, ?_,
      .start isOpen.prepared reached kept isOpen.pending runner numOperations⟩
    rw [List.length_map, length, count]
    exact Nat.mul_div_le numOperations runner.numThreads

/-- The answer of a workload, whatever the moves: a missing precondition, no answer yet, or a report
of a workload that finished. All attempts succeeded.
-/
theorem runMoves_cases (shared : runner.connection = .inMemory name)
    (positive : runner.maxAttempts ≠ some 0) (count : workload.numOperations = numOperations)
    (holds : state.server.Holds name db) (sound : db.Sound) (moves : List Move) (position : Nat)
    : (∃ error, (runner.runMoves moves position workload numOperations state).1
          = some (.error error)
        ∧ error.category = .failedPrecondition
        ∧ (runner.start workload numOperations state.server).1.1 = .error error
        ∧ (runner.runMoves moves position workload numOperations state).2.2.events
          = state.events ++ [(position, .prepare false)])
      ∨ (∃ log : List Attempt, (∀ attempt ∈ log, attempt.hasSucceeded = true)
          ∧ (runner.runMoves moves position workload numOperations state).2.2.events
            = state.events ++ (position, .prepare true)
              :: log.map (position, .attempt ·) ++ [(position, .teardown)])
        ∧ ((runner.runMoves moves position workload numOperations state).1 = none
          ∨ ∃ report after,
            (runner.runMoves moves position workload numOperations state).1 = some (.ok report)
            ∧ (runner.runMoves moves position workload numOperations state).2.2.server.Holds name
              after
            ∧ after.Sound ∧ Finishes runner workload.generator numOperations db after report) := by
  rcases start_cases shared count holds sound with ⟨error, refused, category⟩ | started
  · obtain ⟨answer, events⟩ := runMoves_of_refused moves position refused
    exact .inl ⟨error, answer, category, refused, events⟩
  · obtain ⟨prepared, calls, connection, first, made, enough, serving⟩ := started
    obtain ⟨answer, server, events⟩ := runMoves_of_prepared moves position prepared
    have serving : (runner.poolAfter moves workload numOperations state.server).Serving _ _ _ _ _ _
        _ :=
      Pool.run_induction serving
        (fun _ move serving => serving.step shared positive enough move) moves
    refine .inr ⟨⟨_, serving.succeeded, events⟩, ?_⟩
    cases handed : (runner.poolAfter moves workload numOperations state.server).result? with
    | none => exact .inl (by rw [answer, handed]; rfl)
    | some result =>
        obtain ⟨stats, rfl, failures, done, after, reaches, kept, changes⟩ := serving.handed handed
        refine .inr ⟨stats.report (Workload.name workload), after, ?_, server ▸ reaches.holds, kept,
          failures, done, ?_⟩
        · rw [answer, handed]
          rfl
        · have all := made.trans changes
          rwa [Nat.add_zero, Nat.zero_add] at all

-----------------------------------------------------------------------------------------
-- One workload after the other
-----------------------------------------------------------------------------------------

/-- Hands a report on. -/
def reported (state : RunState) (position : Nat) (report : Report) : RunState :=
  { state with events := state.events ++ [(position, .report report)] }

section

variable {ω : Type} [Workload ω]

/-- Runs workloads one after the other; the schedule gives the moves of the workers at each
position.
-/
def runSchedule (runner : ThreadRunner) (schedule : Nat → List Move) (position : Nat)
    (workloads : List (ω × Nat)) (state : RunState)
    : (List Report × Option (Except BenchError Unit)) × List (ω × Nat) × RunState :=
  runner.runAll (m := Id) (fun position pool => pool.run runner (schedule position))
    (fun _ => pure ()) position workloads state

/-- What the first workloads of a run leave behind, as many as (count). -/
def stateAfter (runner : ThreadRunner) (schedule : Nat → List Move) (position : Nat)
    (workloads : List (ω × Nat)) (state : RunState) (count : Nat) : RunState :=
  (runner.runSchedule schedule position (workloads.take count) state).2.2

variable {workload spent : ω} {after : RunState} {schedule : Nat → List Move} {position : Nat}

theorem runSchedule_of_ended (rest : List (ω × Nat)) {ended : Option BenchError}
    (answered : runner.runMoves (schedule position) position workload numOperations state
      = (ended.map .error, spent, after))
    : runner.runSchedule schedule position ((workload, numOperations) :: rest) state
        = (([], ended.map .error), (spent, numOperations) :: rest, after) := by
  unfold runMoves at answered
  unfold runSchedule
  rw [runAll]
  dsimp only [bind, pure]
  rw [answered]
  cases ended with
  | none => rfl
  | some error => rfl

theorem runSchedule_of_ok (rest : List (ω × Nat)) {report : Report}
    (answered : runner.runMoves (schedule position) position workload numOperations state
      = (some (.ok report), spent, after))
    : runner.runSchedule schedule position ((workload, numOperations) :: rest) state
        = let later := runner.runSchedule schedule (position + 1) rest
            (reported after position report)
          ((report :: later.1.1, later.1.2), (spent, numOperations) :: later.2.1, later.2.2) := by
  unfold runMoves at answered
  unfold runSchedule
  rw [runAll]
  dsimp only [bind, pure]
  rw [answered]
  rfl

/-- What the first workloads leave behind is what those after the first one do, if it has a report.
-/
theorem stateAfter_succ (rest : List (ω × Nat)) {report : Report}
    (answered : runner.runMoves (schedule position) position workload numOperations state
      = (some (.ok report), spent, after)) (count : Nat)
    : runner.stateAfter schedule position ((workload, numOperations) :: rest) state (count + 1)
      = runner.stateAfter schedule (position + 1) rest (reported after position report) count := by
  unfold stateAfter
  rw [List.take_succ_cons, runSchedule_of_ok _ answered]

end

-----------------------------------------------------------------------------------------
-- Whole benchmarks
-----------------------------------------------------------------------------------------

/-- No attempt in a log fails. -/
def AllSucceed (events : List (Nat × RunEvent)) : Prop :=
  ∀ position attempt, (position, .attempt attempt) ∈ events → attempt.hasSucceeded = true

theorem allSucceed_log {log : List Attempt}
    (succeeded : ∀ attempt ∈ log, attempt.hasSucceeded = true) (position : Nat)
    : AllSucceed ((position, .prepare true) :: log.map (position, .attempt ·)
        ++ [(position, .teardown)]) := by
  intro other attempt member
  simp only [List.cons_append, List.mem_cons, List.mem_append, List.mem_map, Prod.mk.injEq,
    RunEvent.attempt.injEq, reduceCtorEq, and_false, List.not_mem_nil, or_false, false_or] at member
  obtain ⟨_, made, _, rfl⟩ := member
  exact succeeded _ made

/-- How the run of a benchmark from a state on ends, and what it did. -/
structure RunsClean (runner : ThreadRunner) (name : String) (schedule : Nat → List Move)
    (position : Nat) (benchmark : Benchmark) (state : RunState) : Prop where
  /-- A run that ends well has a report of each workload. -/
  complete
    : (runner.runSchedule schedule position benchmark state).1.2 = some (.ok ())
      → (runner.runSchedule schedule position benchmark state).1.1.length = benchmark.length
  /-- A run that fails does so because the preparation of the workload after the last report finds
  that a precondition is missing.
  -/
  refused
    : ∀ error, (runner.runSchedule schedule position benchmark state).1.2 = some (.error error)
      → error.category = .failedPrecondition
        ∧ ∃ workload numOperations,
          benchmark[(runner.runSchedule schedule position benchmark state).1.1.length]?
            = some (workload, numOperations)
          ∧ (runner.start workload numOperations
              (runner.stateAfter schedule position benchmark state
                (runner.runSchedule schedule position benchmark state).1.1.length).server).1.1
            = .error error
  /-- No attempt fails. -/
  attempts
    : ∃ events, (runner.runSchedule schedule position benchmark state).2.2.events
        = state.events ++ events ∧ AllSucceed events
  /-- Each report is that of the workload at its place, which did all its operations and changed
  what the name holds by what its load does.
  -/
  finished
    : ∀ index report,
      (runner.runSchedule schedule position benchmark state).1.1[index]? = some report
      → ∃ workload numOperations before after, benchmark[index]? = some (workload, numOperations)
        ∧ (runner.stateAfter schedule position benchmark state index).server.Holds name before
        ∧ (runner.stateAfter schedule position benchmark state (index + 1)).server.Holds name after
        ∧ Finishes runner workload.generator numOperations before after report

section

variable {schedule : Nat → List Move} {position : Nat} {spent : LoadWorkload} {rest : Benchmark}
  {after : RunState}

/-- A run is clean that ends with its first workload, because a precondition is missing or without
an answer.
-/
theorem RunsClean.of_ended (ended : Option BenchError)
    (answered : runner.runMoves (schedule position) position workload numOperations state
      = (ended.map .error, spent, after))
    (lacking : ∀ error, ended = some error → error.category = .failedPrecondition
      ∧ (runner.start workload numOperations state.server).1.1 = .error error)
    (attempts : ∃ events, after.events = state.events ++ events ∧ AllSucceed events)
    : runner.RunsClean name schedule position ((workload, numOperations) :: rest) state := by
  have run := runSchedule_of_ended rest answered
  refine ⟨fun complete => ?_, fun error failed => ?_, ?_, fun index report found => ?_⟩
  · rw [run] at complete
    cases ended with
    | none => cases complete
    | some error => cases complete
  · rw [run] at failed ⊢
    cases ended with
    | none => cases failed
    | some ended =>
        cases failed
        obtain ⟨category, refused⟩ := lacking error rfl
        exact ⟨category, workload, numOperations, rfl, refused⟩
  · rw [run]
    exact attempts
  · rw [run] at found
    cases found

/-- A run is clean whose first workload finished, if it goes on clean. -/
theorem RunsClean.of_ok {report : Report} {next : Database}
    (answered : runner.runMoves (schedule position) position workload numOperations state
      = (some (.ok report), spent, after))
    (attempts : ∃ events, after.events = state.events ++ events ∧ AllSucceed events)
    (holds : state.server.Holds name db) (left : after.server.Holds name next)
    (finishes : Finishes runner workload.generator numOperations db next report)
    (later : runner.RunsClean name schedule (position + 1) rest (reported after position report))
    : runner.RunsClean name schedule position ((workload, numOperations) :: rest) state := by
  have run := runSchedule_of_ok rest answered
  have stage := stateAfter_succ rest answered
  refine ⟨fun complete => ?_, fun error failed => ?_, ?_, fun index other found => ?_⟩
  · rw [run] at complete ⊢
    exact congrArg Nat.succ (later.complete complete)
  · rw [run] at failed ⊢
    obtain ⟨category, other, count, listed, refused⟩ := later.refused error failed
    exact ⟨category, other, count, listed, by rw [List.length_cons, stage]; exact refused⟩
  · obtain ⟨events, whole, all⟩ := attempts
    obtain ⟨more, added, others⟩ := later.attempts
    refine ⟨events ++ (position, .report report) :: more, ?_, fun place attempt member => ?_⟩
    · rw [run]
      refine added.trans ?_
      simp [reported, whole]
    · rcases List.mem_append.mp member with early | late
      · exact all place attempt early
      · rcases List.mem_cons.mp late with same | late
        · cases same
        · exact others place attempt late
  · rw [run] at found
    cases index with
    | zero =>
        cases found
        exact ⟨workload, numOperations, db, next, rfl, holds, by rw [stage]; exact left, finishes⟩
    | succ index =>
        obtain ⟨other, count, before, beyond, listed, first, last, done⟩ :=
          later.finished index other found
        refine ⟨other, count, before, beyond, listed, ?_, ?_, done⟩
        · rw [stage]
          exact first
        · rw [stage]
          exact last

end

/-- A run of workloads of loads, each with as many items as it has operations, is clean. By
induction on the workloads: each one that has a report leaves sound contents to the next one.
-/
theorem runsClean (shared : runner.connection = .inMemory name)
    (positive : runner.maxAttempts ≠ some 0) {benchmark : Benchmark}
    (counted : ∀ entry ∈ benchmark, entry.1.numOperations = entry.2)
    (holds : state.server.Holds name db) (sound : db.Sound) (schedule : Nat → List Move)
    (position : Nat)
    : runner.RunsClean name schedule position benchmark state := by
  induction benchmark generalizing position state db with
  | nil =>
      refine ⟨fun _ => rfl, fun error failed => ?_, ⟨[], (List.append_nil _).symm, ?_⟩,
        fun index report found => ?_⟩
      · cases failed
      · exact fun _ _ member => absurd member List.not_mem_nil
      · cases found
  | cons entry rest ih =>
      obtain ⟨workload, numOperations⟩ := entry
      obtain ⟨count, counted⟩ := List.forall_mem_cons.mp counted
      -- The contents that the next workload starts with are known only from the answer of this one.
      have answers := runMoves_cases shared positive count holds sound (schedule position) position
      generalize answered
        : runner.runMoves (schedule position) position workload numOperations state = answer
        at answers
      obtain ⟨result, spent, after⟩ := answer
      rcases answers with ⟨error, rfl, category, refused, events⟩ | ⟨⟨log, all, events⟩, answer⟩
      · refine .of_ended (some error) answered (fun other same => ?_)
          ⟨_, events, fun _ _ member => ?_⟩
        · cases same
          exact ⟨category, refused⟩
        · cases List.mem_singleton.mp member
      · have attempts : ∃ events, after.events = state.events ++ events ∧ AllSucceed events :=
          ⟨_, events.trans (List.append_assoc ..), allSucceed_log all position⟩
        rcases answer with rfl | ⟨report, next, rfl, left, kept, finishes⟩
        · exact .of_ended none answered (fun error failed => by cases failed) attempts
        · have held : (reported after position report).server.Holds name next := left
          exact .of_ok answered attempts holds left finishes (ih counted held kept (position + 1))

end ThreadRunner

-----------------------------------------------------------------------------------------
-- Benchmarks from configurations
-----------------------------------------------------------------------------------------

/-- What a list is mapped to comes from its elements, by induction on the list. -/
theorem exists_of_mapM_eq_ok {ε α β : Type} {f : α → Except ε β} {items : List α} {results : List β}
    (mapped : items.mapM f = .ok results)
    : ∀ result ∈ results, ∃ item, f item = .ok result := by
  induction items generalizing results with
  | nil =>
      cases mapped
      exact List.forall_mem_nil _
  | cons item rest ih =>
      rw [List.mapM_cons] at mapped
      cases first : f item with
      | error error =>
          rw [first] at mapped
          cases mapped
      | ok result =>
          rw [first] at mapped
          cases others : rest.mapM f with
          | error error =>
              rw [others] at mapped
              cases mapped
          | ok results =>
              rw [others] at mapped
              cases mapped
              exact List.forall_mem_cons.mpr ⟨⟨item, first⟩, ih others⟩

/-- A workload of a benchmark has as many operations as are executed. -/
theorem Benchmark.numOperations_eq {freshSeed : Nat → UInt64} {configs : List WorkloadConfig}
    {benchmark : Benchmark} (built : Benchmark.new? freshSeed configs = .ok benchmark)
    : ∀ entry ∈ benchmark, entry.1.numOperations = entry.2 := by
  intro entry member
  obtain ⟨⟨config, position⟩, made⟩ := exists_of_mapM_eq_ok built entry member
  obtain ⟨workload, made, same⟩ := map_eq_ok_iff.mp made
  obtain ⟨load, _, rfl⟩ := map_eq_ok_iff.mp made
  subst same
  rfl

namespace ThreadRunner

/-- Take any benchmark and a runner whose connections reach the database of one name, which holds
contents that calls have led to. In every schedule a run that has an end either ends well, with a
report of each workload, or fails for a precondition that the preparation of a workload misses. No
attempt fails. Each report counts no failures and all operations that the workers share out, and its
workload changed what the name holds by exactly what its load does: new rows, one for each operation
of a load that creates; the rows that were missing for a load that updates; nothing for a load that
reads.
-/
theorem runSchedule_benchmark {name : String} {config : ThreadEnvConfig} {runner : ThreadRunner}
    (made : new? (.inMemory name) config = .ok runner) {freshSeed : Nat → UInt64}
    {configs : List WorkloadConfig} {benchmark : Benchmark}
    (built : Benchmark.new? freshSeed configs = .ok benchmark) {state : RunState} {db : Database}
    (holds : state.server.Holds name db) (reachable : db.Reachable) (schedule : Nat → List Move)
    : let run := runner.runSchedule schedule 0 benchmark state
      let stage := runner.stateAfter schedule 0 benchmark state
      (∀ ending, run.1.2 = some ending →
        ending = .ok () ∧ run.1.1.length = benchmark.length
        ∨ ∃ error workload numOperations, ending = .error error
          ∧ error.category = .failedPrecondition
          ∧ benchmark[run.1.1.length]? = some (workload, numOperations)
          ∧ (runner.start workload numOperations (stage run.1.1.length).server).1.1 = .error error)
      ∧ (∃ events, run.2.2.events = state.events ++ events
          ∧ ∀ position attempt, (position, .attempt attempt) ∈ events → attempt.hasSucceeded = true)
      ∧ ∀ index report, run.1.1[index]? = some report →
          ∃ workload numOperations before after,
            benchmark[index]? = some (workload, numOperations)
            ∧ report.failures = 0
            ∧ report.operations = runner.numThreads * (numOperations / runner.numThreads)
            ∧ (stage index).server.Holds name before
            ∧ (stage (index + 1)).server.Holds name after
            ∧ workload.generator.Changes (workload.generator.missing numOperations before)
              (runner.numThreads * (numOperations / runner.numThreads)) before after := by
  intro run stage
  obtain ⟨rfl, _, positive⟩ := new?_eq_ok made
  have clean := runsClean rfl positive (Benchmark.numOperations_eq built) holds reachable.sound
    schedule 0
  refine ⟨fun ending ended => ?_, clean.attempts, fun index report found => ?_⟩
  · cases ending with
    | ok => exact .inl ⟨rfl, clean.complete ended⟩
    | error error =>
        obtain ⟨category, workload, numOperations, listed, refused⟩ := clean.refused error ended
        exact .inr ⟨error, workload, numOperations, rfl, category, listed, refused⟩
  · obtain ⟨workload, numOperations, before, after, listed, first, last, finishes⟩ :=
      clean.finished index report found
    exact ⟨workload, numOperations, before, after, listed, finishes.failures, finishes.operations,
      first, last, finishes.changes⟩

/-- A workload of each kind of load, three operations each. -/
def pipeline : List WorkloadConfig :=
  [⟨3, none, .fillTypes .artifact false ⟨1, 2⟩⟩, ⟨3, none, .fillTypes .context true ⟨1, 2⟩⟩,
    ⟨3, none, .fillNodes .artifact true ⟨0, 2⟩ ⟨1, 2⟩⟩,
    ⟨3, none, .fillNodes .context false ⟨0, 2⟩ ⟨1, 2⟩⟩, ⟨3, none, .fillLinks .attribution⟩,
    ⟨3, none, .readTypes .artifact .byName⟩, ⟨3, none, .readNodes .context .byTypeAndName⟩,
    ⟨3, none, .readLinked .artifactsByContext⟩, ⟨3, none, .readEvents .byArtifact⟩,
    ⟨3, none, .fillEvents .output⟩]

/-- Two workers that move in turn, at each workload. -/
def turns (_ : Nat) : List Move := (List.replicate 3 [⟨1, 0, 0⟩, ⟨0, 0, 0⟩]).flatten

/-- How the pipeline runs on a server without databases. -/
def runPipeline (benchmark : Benchmark)
    : (List Report × Option (Except BenchError Unit)) × Benchmark × RunState :=
  runSchedule ⟨.inMemory "pipeline", 2, some 3⟩ turns 0 benchmark { server := .empty }

/-- The pipeline runs up to its last workload, which finds no execution to link artifacts to. All
attempts before it succeed, and each report counts two operations.
-/
theorem runSchedule_pipeline
    : ∃ benchmark, Benchmark.new? (fun _ => 7) pipeline = .ok benchmark
      ∧ (runPipeline benchmark).1.1.length = 9
      ∧ (runPipeline benchmark).1.2 = some (.error .noEventEnds)
      ∧ (∀ position attempt, (position, .attempt attempt) ∈ (runPipeline benchmark).2.2.events →
        attempt.hasSucceeded = true)
      ∧ ∀ (index : Nat) report, (runPipeline benchmark).1.1[index]? = some report →
        report.failures = 0
        ∧ ∃ workload numOperations, benchmark[index]? = some (workload, numOperations)
          ∧ report.operations = 2 * (numOperations / 2) := by
  have evaluated
      : (Benchmark.new? (fun _ => 7) pipeline).toOption.map
          (fun benchmark => ((runPipeline benchmark).1.1.length, (runPipeline benchmark).1.2))
        = some (9, some (.error .noEventEnds)) := by
    decide +kernel
  have made : new? (.inMemory "pipeline") ⟨2, some 3⟩ = .ok ⟨.inMemory "pipeline", 2, some 3⟩ := rfl
  have holds : Server.empty.Holds "pipeline" .empty := by simp [Server.Holds, Server.empty]
  -- From here on the benchmark is a variable, so that the run is not evaluated again.
  cases built : Benchmark.new? (fun _ => 7) pipeline with
  | error error =>
      rw [built] at evaluated
      cases evaluated
  | ok benchmark =>
      rw [built] at evaluated
      obtain ⟨finished, ended⟩ := Prod.mk.inj (Option.some.inj evaluated)
      obtain ⟨_, ⟨events, whole, succeeded⟩, reports⟩ :=
        @runSchedule_benchmark _ _ _ made _ _ _ built { server := .empty } .empty holds ⟨[], rfl⟩
          turns
      refine ⟨benchmark, rfl, finished, ended, fun position attempt member => ?_,
        fun index report found => ?_⟩
      · rw [runPipeline, whole] at member
        exact succeeded position attempt member
      · obtain ⟨workload, numOperations, _, _, listed, failures, operations, _⟩ :=
          reports index report found
        exact ⟨failures, workload, numOperations, listed, operations⟩

end ThreadRunner

end LineageLoad
