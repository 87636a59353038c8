import LineageLoad.Proofs.Runner.Order
import LineageLoad.Runner.Scripted

/-!
The life of the workloads of a run, as they record it themselves: each is prepared once, executed
only while it is prepared, and torn down once, before its report is handed on.
-/

namespace LineageLoad

-----------------------------------------------------------------------------------------
-- Workloads that are watched
-----------------------------------------------------------------------------------------

section

variable {ω : Type} {runner : ThreadRunner}

/-- Workloads that begin a record. -/
def watch (workloads : List (ω × Nat)) : List (Watched ω × Nat) :=
  workloads.map fun (workload, numOperations) => (⟨workload, []⟩, numOperations)

def unwatch (workloads : List (Watched ω × Nat)) : List (ω × Nat) :=
  workloads.map fun (watched, numOperations) => (watched.inner, numOperations)

theorem unwatch_watch (workloads : List (ω × Nat))
    : unwatch (watch workloads) = workloads := by
  simp [unwatch, watch, Function.comp_def]

def Pool.unwatched (pool : Pool (Watched ω)) : Pool ω :=
  { pool with workload := pool.workload.inner }

variable [Workload ω]

/-- A pool moves as it does if its workload is not watched. -/
theorem Pool.unwatched_step (pool : Pool (Watched ω)) (move : Move)
    : (pool.step runner move).unwatched = pool.unwatched.step runner move := by
  obtain ⟨watched, server, workers, totalDone, attempts⟩ := pool
  simp only [step, unwatched]
  cases workers[move.worker]? with
  | none => rfl
  | some worker =>
      obtain ⟨next, stop, failures, stats, status⟩ := worker
      cases status with
      | working connection =>
          dsimp only
          split
          · rw [attempt_eq, attempt_eq]
            rfl
          · rfl
      | _ => rfl

theorem Pool.unwatched_run (runner : ThreadRunner) (pool : Pool (Watched ω)) (moves : List Move)
    : (pool.run runner moves).unwatched = pool.unwatched.run runner moves := by
  induction moves generalizing pool with
  | nil => rfl
  | cons move rest ih =>
      have later := ih (pool.step runner move)
      rw [unwatched_step] at later
      exact later

/-- A run of one workload gives the same if it is not watched. -/
theorem ThreadRunner.runMoves_unwatched (runner : ThreadRunner) (moves : List Move)
    (position : Nat) (watched : Watched ω) (numOperations : Nat) (state : RunState)
    : (runner.runMoves moves position watched numOperations state).map id
          (fun (spent, state) => (spent.inner, state))
        = runner.runMoves moves position watched.inner numOperations state := by
  have started : (runner.start watched numOperations state.server).map id Pool.unwatched
      = runner.start watched.inner numOperations state.server := rfl
  unfold runMoves runWorkload
  rw [← started]
  generalize runner.start watched numOperations state.server = start
  obtain ⟨⟨result, notes⟩, pool⟩ := start
  cases result with
  | error error => rfl
  | ok =>
      have ran := Pool.unwatched_run runner pool moves
      have handed : (pool.unwatched.run runner moves).result? = (pool.run runner moves).result? :=
        ran ▸ rfl
      dsimp only [bind, pure, Prod.map]
      rw [handed, ← ran]
      cases (pool.run runner moves).result? with
      | none => rfl
      | some result => cases result <;> rfl

/-- A run gives the same if its workloads are not watched, by induction on the workloads. -/
theorem ThreadRunner.runSchedule_unwatched (schedule : Nat → List Move) (position : Nat)
    (workloads : List (Watched ω × Nat)) (state : RunState)
    : (runner.runSchedule schedule position workloads state).map id
          (fun (left, state) => (unwatch left, state))
        = runner.runSchedule schedule position (unwatch workloads) state := by
  induction workloads generalizing position state with
  | nil => rfl
  | cons entry rest ih =>
      obtain ⟨watched, numOperations⟩ := entry
      have same := runner.runMoves_unwatched (schedule position) position watched numOperations
        state
      generalize answered
        : runner.runMoves (schedule position) position watched numOperations state = answer at same
      obtain ⟨result, spent, after⟩ := answer
      rcases result with _ | error | report
      · exact (congrArg _ (runSchedule_of_none rest answered)).trans
          (runSchedule_of_none (unwatch rest) same.symm).symm
      · exact (congrArg _ (runSchedule_of_error rest answered)).trans
          (runSchedule_of_error (unwatch rest) same.symm).symm
      · refine (congrArg _ (runSchedule_of_ok rest answered)).trans
          (Eq.trans ?_ (runSchedule_of_ok (unwatch rest) same.symm).symm)
        rw [← ih]
        rfl

end

-----------------------------------------------------------------------------------------
-- Workloads of generators
-----------------------------------------------------------------------------------------

section

variable {κ γ : Type} [Generator κ] [WordSource γ] {runner : ThreadRunner}

/-- Each attempt among these events issues a call. -/
def AllIssued (events : List (Nat × RunEvent)) : Prop :=
  ∀ position attempt, (position, .attempt attempt) ∈ events → attempt.outcome.IsIssued

theorem ThreadRunner.runMoves_allIssued (moves : List Move) (position : Nat)
    (workload : GeneratedWorkload κ γ) (state : RunState)
    : ∃ events, (runner.runMoves moves position workload workload.numOperations state).2.2.events
        = state.events ++ events ∧ AllIssued events := by
  cases prepared : (runner.start workload workload.numOperations state.server).1.1 with
  | error error =>
      refine ⟨_, (runMoves_of_refused moves position prepared).2, fun place attempt member => ?_⟩
      cases List.mem_singleton.mp member
  | ok =>
      refine ⟨_, (runMoves_of_prepared moves position prepared).2.2.trans (List.append_assoc ..),
        fun place attempt member => ?_⟩
      rcases List.mem_cons.mp member with first | member
      · cases first
      · rcases List.mem_append.mp member with made | last
        · obtain ⟨_, logged, same⟩ := List.mem_map.mp made
          cases same
          exact poolAfter_isIssued prepared _ logged
        · cases List.mem_singleton.mp last

/-- Whatever the moves, each attempt issues a call, by induction on the workloads. -/
theorem ThreadRunner.runSchedule_allIssued {workloads : List (GeneratedWorkload κ γ × Nat)}
    (counted : ∀ entry ∈ workloads, entry.1.numOperations = entry.2) (schedule : Nat → List Move)
    (position : Nat) (state : RunState)
    : ∃ events, (runner.runSchedule schedule position workloads state).2.2.events
        = state.events ++ events ∧ AllIssued events := by
  induction workloads generalizing position state with
  | nil => exact ⟨[], (List.append_nil _).symm, fun _ _ member => absurd member List.not_mem_nil⟩
  | cons entry rest ih =>
      obtain ⟨workload, numOperations⟩ := entry
      obtain ⟨count, followers⟩ := List.forall_mem_cons.mp counted
      obtain rfl : workload.numOperations = numOperations := count
      obtain ⟨events, happened, issued⟩ := runner.runMoves_allIssued (schedule position) position
        workload state
      generalize answered : runner.runMoves (schedule position) position workload
        workload.numOperations state = answer at happened
      obtain ⟨result, spent, after⟩ := answer
      rcases result with _ | error | report
      · rw [runSchedule_of_none rest answered]
        exact ⟨events, happened, issued⟩
      · rw [runSchedule_of_error rest answered]
        exact ⟨events, happened, issued⟩
      · obtain ⟨later, more, others⟩ := ih followers (position + 1) (reported after position report)
        rw [runSchedule_of_ok rest answered]
        refine ⟨events ++ (position, .report report) :: later, ?_, fun place attempt member => ?_⟩
        · refine more.trans ?_
          rw [reported, happened, List.append_assoc, List.append_assoc]
          rfl
        · rcases List.mem_append.mp member with now | next
          · exact issued place attempt now
          · refine others place attempt ((List.mem_cons.mp next).resolve_left fun same => ?_)
            cases same

end

/-- The workloads of a new benchmark hold no items. -/
theorem Benchmark.items_eq {freshSeed : Nat → UInt64} {configs : List WorkloadConfig}
    {benchmark : Benchmark} (built : Benchmark.new? freshSeed configs = .ok benchmark)
    : ∀ entry ∈ benchmark, entry.1.items = [] := by
  intro entry member
  obtain ⟨⟨config, position⟩, made⟩ := exists_of_mapM_eq_ok built entry member
  obtain ⟨workload, made, same⟩ := map_eq_ok_iff.mp made
  obtain ⟨load, _, rfl⟩ := map_eq_ok_iff.mp made
  subst same
  rfl

-----------------------------------------------------------------------------------------
-- Whole runs
-----------------------------------------------------------------------------------------

namespace ThreadRunner

variable {ω : Type} [Workload ω] {runner : ThreadRunner} {schedule : Nat → List Move}
  {position numOperations : Nat} {workload spent : ω} {workloads : List (ω × Nat)}
  {state : RunState} {ending : Except BenchError Unit} {events : List (Nat × RunEvent)}

/-- The record of a watched workload tells what happened to it in the run. -/
theorem RunsInOrder.record {workloads : List (Watched ω × Nat)} {workload : Watched ω}
    (inOrder : runner.RunsInOrder schedule 0 workloads state ending events)
    (listed : workloads[position]? = some (workload, numOperations))
    : ∃ spent,
      (runner.runSchedule schedule 0 workloads state).2.1[position]? = some (spent, numOperations)
      ∧ spent.record
        = workload.record ++ (eventsAt position events).filterMap RunEvent.lifeStep? := by
  obtain ⟨spent, left, finished, ended, untouched⟩ := inOrder.workload_cases listed
  refine ⟨spent, left, ?_⟩
  rcases Nat.lt_trichotomy position
    (runner.runSchedule schedule 0 workloads state).1.1.length with before | here | beyond
  · obtain ⟨own, report, _, happened, stage⟩ := finished before
    rw [happened, List.filterMap_append, stage.record]
    exact congrArg _ (List.append_nil _).symm
  · obtain ⟨error, _, stage⟩ := ended here
    exact stage.record
  · obtain ⟨happened, rfl⟩ := untouched beyond
    rw [happened]
    exact (List.append_nil _).symm

/-- No workload of a generator that held no items before a run holds any after it. -/
theorem RunsInOrder.items {κ γ : Type} [Generator κ] [WordSource γ]
    {workloads : List (GeneratedWorkload κ γ × Nat)} {workload : GeneratedWorkload κ γ}
    (inOrder : runner.RunsInOrder schedule 0 workloads state ending events)
    (listed : workloads[position]? = some (workload, numOperations)) (fresh : workload.items = [])
    : ∃ spent,
      (runner.runSchedule schedule 0 workloads state).2.1[position]? = some (spent, numOperations)
      ∧ spent.items = [] := by
  obtain ⟨spent, left, finished, ended, untouched⟩ := inOrder.workload_cases listed
  refine ⟨spent, left, ?_⟩
  rcases Nat.lt_trichotomy position
    (runner.runSchedule schedule 0 workloads state).1.1.length with before | here | beyond
  · obtain ⟨own, report, _, happened, stage⟩ := finished before
    exact stage.items fresh
  · obtain ⟨error, _, stage⟩ := ended here
    exact stage.items fresh
  · obtain ⟨_, rfl⟩ := untouched beyond
    exact fresh

/-- In every run that has an end, the workloads are handled one after the other. The ones before the
first failure go through all their stages, the report of each being handed on after its teardown and
before the next one is prepared; the failing one is torn down just if it was prepared, when all its
workers have ended; and the later ones are left alone. What the workloads are asked for, on their
own record, is what happened to them. In a run of a new benchmark each attempt issues a call, and
after one that has an end no workload holds an item.
-/
theorem runListening_lifecycle (runner : ThreadRunner) (schedule : Nat → List Move)
    (server : Server)
    : (∀ (ω : Type) [Workload ω] (workloads : List (ω × Nat)) ending,
        let run := runner.runListening schedule workloads { server }
        let watched := runner.runListening schedule (watch workloads) { server }
        let reports := run.1.1.1
        let events := run.1.2.2.events
        run.1.1.2 = some ending →
          run.2 = reports
          ∧ (ending = .ok () ↔ reports.length = workloads.length)
          ∧ (events.map (·.1)).Pairwise (· ≤ ·)
          ∧ watched.1.2.2.events = events
          ∧ ∀ (position : Nat) workload numOperations,
              workloads[position]? = some (workload, numOperations) →
              let before := (runner.stateAfter schedule 0 workloads { server } position).server
              let stage := Stage runner (schedule position) workload numOperations before
              (∃ spent, watched.1.2.1[position]? = some (spent, numOperations)
                ∧ spent.record = (eventsAt position events).filterMap RunEvent.lifeStep?)
              ∧ ∃ spent, run.1.2.1[position]? = some (spent, numOperations)
                ∧ (position < reports.length → ∃ own report, reports[position]? = some report
                  ∧ eventsAt position events = own ++ [.report report]
                  ∧ stage own (.ok report) spent)
                ∧ (position = reports.length → ∃ error, ending = .error error
                  ∧ stage (eventsAt position events) (.error error) spent)
                ∧ (reports.length < position → eventsAt position events = [] ∧ spent = workload))
      ∧ ∀ freshSeed configs (benchmark : Benchmark),
          Benchmark.new? freshSeed configs = .ok benchmark →
          let run := runner.runListening schedule benchmark { server }
          (∀ position attempt, (position, .attempt attempt) ∈ run.1.2.2.events →
            attempt.outcome.IsIssued)
          ∧ (run.1.1.2.isSome → ∀ (position : Nat) workload numOperations,
            benchmark[position]? = some (workload, numOperations) →
            ∃ spent, run.1.2.1[position]? = some (spent, numOperations)
              ∧ Workload.numItems spent = 0) := by
  constructor
  case left =>
    intro ω _ workloads ending run watched reports events ended
    have heard := runListening_eq runner schedule workloads { server }
    have plain : run.1 = runner.runSchedule schedule 0 workloads { server } :=
      congrArg Prod.fst heard
    have seen : watched.1 = runner.runSchedule schedule 0 (watch workloads) { server } :=
      congrArg Prod.fst (runListening_eq runner schedule (watch workloads) { server })
    have unwatched := runner.runSchedule_unwatched schedule 0 (watch workloads) { server }
    rw [unwatch_watch, ← seen, ← plain] at unwatched
    have state : watched.1.2.2 = run.1.2.2 := congrArg (·.2.2) unwatched
    have result : watched.1.1 = run.1.1 := congrArg (·.1) unwatched
    obtain ⟨happened, inOrder⟩ := runsInOrder (plain ▸ ended)
    obtain ⟨recorded, watchedOrder⟩ := runsInOrder (seen ▸ result ▸ ended)
    have whole : events = happened := by
      have whole := inOrder.whole
      rwa [← plain, List.nil_append] at whole
    have both : recorded = happened := by
      have whole' := watchedOrder.whole
      rw [← seen, state, List.nil_append] at whole'
      exact whole'.symm.trans whole
    subst both
    have reported : reports = (runner.runSchedule schedule 0 workloads { server }).1.1 :=
      congrArg (·.1.1) plain
    refine ⟨(congrArg Prod.snd heard).trans reported.symm, ?_, whole ▸ inOrder.ordered,
      congrArg _ state, fun position workload numOperations listed => ⟨?_, ?_⟩⟩
    · have last := inOrder.last
      rw [reported]
      cases ending with
      | ok => exact ⟨fun _ => last, fun _ => rfl⟩
      | error error =>
          obtain ⟨_, _, _, listed, _⟩ := last
          have inside := (List.getElem?_eq_some_iff.mp listed).1
          exact ⟨nofun, fun all => absurd all (Nat.ne_of_lt inside)⟩
    · have begun : (watch workloads)[position]? = some (⟨workload, []⟩, numOperations) := by
        rw [watch, List.getElem?_map, listed]
        rfl
      rw [seen, whole]
      exact watchedOrder.record begun
    · rw [plain, reported, whole]
      exact inOrder.workload_cases listed
  case right =>
    intro freshSeed configs benchmark built run
    have plain : run.1 = runner.runSchedule schedule 0 benchmark { server } :=
      congrArg Prod.fst (runListening_eq runner schedule benchmark { server })
    rw [plain]
    constructor
    · obtain ⟨events, happened, issued⟩ := runner.runSchedule_allIssued
        (Benchmark.numOperations_eq built) schedule 0 { server }
      intro position attempt member
      rw [happened] at member
      exact issued position attempt member
    · intro ended position workload numOperations listed
      obtain ⟨ending, ended⟩ := Option.isSome_iff_exists.mp ended
      obtain ⟨events, inOrder⟩ := runsInOrder ended
      have fresh := Benchmark.items_eq built _ (List.mem_of_getElem? listed)
      obtain ⟨spent, left, items⟩ := inOrder.items listed fresh
      exact ⟨spent, left, congrArg List.length items⟩

/-- A workload of two operations whose attempts all end in the same way. -/
def constantly (name : String) (outcome : Outcome) : ScriptedWorkload where
  name := name
  numOperations := 2
  refusal := none
  outcome _ _ := outcome

/-- Of three workloads the second one panics: it is torn down, and the third one is left alone. -/
theorem runListening_panics
    : let workloads := [(constantly "first" (.succeeded ⟨1, 1⟩), 2),
        (constantly "second" .panicked, 2), (constantly "third" (.succeeded ⟨1, 1⟩), 2)]
      let run := runListening ⟨.fakeDatabase, 2, some 1⟩ turns workloads { server := .empty }
      let watched := runListening ⟨.fakeDatabase, 2, some 1⟩ turns (watch workloads)
        { server := .empty }
      run.1.1.2 = some (.error (.workerPanicked "second"))
      ∧ run.2.length = 1
      ∧ (∃ spent, watched.1.2.1[1]? = some (spent, 2)
        ∧ spent.record = [.prepared true, .executed 1, .executed 0, .tornDown])
      ∧ ∃ spent, watched.1.2.1[2]? = some (spent, 2) ∧ spent.record = [] := by
  intro workloads run watched
  have evaluated : run.1.1.2 = some (.error (.workerPanicked "second"))
      ∧ run.1.1.1.length = 1
      ∧ (eventsAt 1 run.1.2.2.events).filterMap RunEvent.lifeStep?
        = [.prepared true, .executed 1, .executed 0, .tornDown]
      ∧ (eventsAt 2 run.1.2.2.events).filterMap RunEvent.lifeStep? = [] := by
    decide +kernel
  obtain ⟨ended, length, second, third⟩ := evaluated
  obtain ⟨heard, _, _, _, stages⟩ := (runListening_lifecycle ⟨.fakeDatabase, 2, some 1⟩ turns
    .empty).1 ScriptedWorkload workloads _ ended
  obtain ⟨⟨torn, left, recorded⟩, _⟩ := stages 1 _ _ rfl
  obtain ⟨⟨later, untouched, nothing⟩, _⟩ := stages 2 _ _ rfl
  exact ⟨ended, heard ▸ length, ⟨torn, left, recorded.trans second⟩,
    later, untouched, nothing.trans third⟩

end ThreadRunner

end LineageLoad
