import LineageLoad.Proofs.Runner.Benchmarks
import LineageLoad.Proofs.Runner.Stages

/-!
Runs handle their workloads one after the other: each goes through its stages, up to the first one
that fails. This holds for every order of the workers' moves, whatever becomes of the workers.
-/

namespace LineageLoad

/-- What happened to the workload at a position. -/
def eventsAt (position : Nat) (events : List (Nat × RunEvent)) : List RunEvent :=
  events.filterMap fun (other, event) => if other = position then some event else none

theorem eventsAt_map_self (position : Nat) (own : List RunEvent)
    : eventsAt position (own.map (position, ·)) = own := by
  simp [eventsAt, List.filterMap_map]

theorem eventsAt_eq_nil {position : Nat} {events : List (Nat × RunEvent)}
    (elsewhere : ∀ event ∈ events, event.1 ≠ position)
    : eventsAt position events = [] := by
  refine List.filterMap_eq_nil_iff.mpr fun event member => if_neg (elsewhere event member)

section

variable {position : Nat} {events : List (Nat × RunEvent)}

theorem eventsAt_block (own : List RunEvent) (beyond : ∀ event ∈ events, position + 1 ≤ event.1)
    : eventsAt position (own.map (position, ·) ++ events) = own := by
  have none : eventsAt position events = [] :=
    eventsAt_eq_nil fun event member => Nat.ne_of_gt (beyond event member)
  rw [eventsAt, List.filterMap_append]
  exact (congrArg₂ (· ++ ·) (eventsAt_map_self position own) none).trans (List.append_nil own)

theorem eventsAt_beyond_block (own : List RunEvent) (index : Nat)
    : eventsAt (position + (index + 1)) (own.map (position, ·) ++ events)
      = eventsAt (position + 1 + index) events := by
  have none : eventsAt (position + (index + 1)) (own.map (position, ·)) = [] := by
    refine eventsAt_eq_nil fun event member => ?_
    obtain ⟨_, _, rfl⟩ := List.mem_map.mp member
    exact Nat.ne_of_lt (Nat.lt_add_of_pos_right (Nat.succ_pos index))
  rw [eventsAt, List.filterMap_append, Nat.add_right_comm position 1 index]
  exact congrArg (· ++ _) none

/-- Events stay in the order of the positions if those of an earlier position come before them. -/
theorem ordered_block (own : List RunEvent) (beyond : ∀ event ∈ events, position + 1 ≤ event.1)
    (ordered : (events.map (·.1)).Pairwise (· ≤ ·))
    : ((own.map (position, ·) ++ events).map (·.1)).Pairwise (· ≤ ·) := by
  rw [List.map_append, List.pairwise_append]
  refine ⟨?_, ordered, fun one first other second => ?_⟩
  · simp [Function.comp_def, List.map_const', List.pairwise_replicate]
  · obtain ⟨_, member, rfl⟩ := List.mem_map.mp first
    obtain ⟨_, _, rfl⟩ := List.mem_map.mp member
    obtain ⟨event, found, rfl⟩ := List.mem_map.mp second
    exact Nat.le_of_succ_le (beyond event found)

end

namespace ThreadRunner

variable {ω : Type} [Workload ω] {runner : ThreadRunner} {schedule : Nat → List Move}
  {position numOperations : Nat} {workload spent : ω} {workloads rest : List (ω × Nat)}
  {state after : RunState} {ending : Except BenchError Unit}

theorem runSchedule_of_none (rest : List (ω × Nat))
    (answered : runner.runMoves (schedule position) position workload numOperations state
      = (none, spent, after))
    : runner.runSchedule schedule position ((workload, numOperations) :: rest) state
        = (([], none), (spent, numOperations) :: rest, after) := by
  have none : runner.runMoves (schedule position) position workload numOperations state
      = ((none : Option BenchError).map .error, spent, after) :=
    answered
  exact runSchedule_of_ended rest none

theorem runSchedule_of_error (rest : List (ω × Nat)) {error : BenchError}
    (answered : runner.runMoves (schedule position) position workload numOperations state
      = (some (.error error), spent, after))
    : runner.runSchedule schedule position ((workload, numOperations) :: rest) state
        = (([], some (.error error)), (spent, numOperations) :: rest, after) := by
  have failed : runner.runMoves (schedule position) position workload numOperations state
      = ((some error).map .error, spent, after) :=
    answered
  exact runSchedule_of_ended rest failed

/-- A run of one workload does nothing else if the way of its pool is given. -/
theorem runWorkload_pure {m : Type → Type} [Monad m] [LawfulMonad m] (moves : List Move)
    (position : Nat) (workload : ω) (numOperations : Nat) (state : RunState)
    : runner.runWorkload (fun pool => (pure (pool.run runner moves) : m (Pool ω))) position workload
        numOperations state
      = pure (runner.runMoves moves position workload numOperations state) := by
  unfold runMoves runWorkload
  generalize runner.start workload numOperations state.server = started
  obtain ⟨⟨result, notes⟩, pool⟩ := started
  cases result with
  | error error => rfl
  | ok =>
      refine (pure_bind _ _).trans ?_
      dsimp only [bind]
      cases (pool.run runner moves).result? with
      | none => rfl
      | some result => cases result <;> rfl

/-- By induction on the workloads. -/
theorem runAll_listening (workloads : List (ω × Nat)) (position : Nat) (state : RunState)
    (heard : List Report)
    : (runner.runAll (m := StateM (List Report))
        (fun position pool => pure (pool.run runner (schedule position)))
        (fun report => modify (· ++ [report])) position workloads state).run heard
      = (runner.runSchedule schedule position workloads state,
        heard ++ (runner.runSchedule schedule position workloads state).1.1) := by
  induction workloads generalizing position state heard with
  | nil => exact congrArg (Prod.mk _) (List.append_nil heard).symm
  | cons entry rest ih =>
      obtain ⟨workload, numOperations⟩ := entry
      rw [runAll, runWorkload_pure, pure_bind]
      generalize answered
        : runner.runMoves (schedule position) position workload numOperations state = answer
      obtain ⟨result, spent, after⟩ := answer
      cases result with
      | none =>
          rw [runSchedule_of_none rest answered]
          exact congrArg (Prod.mk _) (List.append_nil heard).symm
      | some result =>
          cases result with
          | error error =>
              rw [runSchedule_of_error rest answered]
              exact congrArg (Prod.mk _) (List.append_nil heard).symm
          | ok report =>
              rw [runSchedule_of_ok rest answered]
              have later := ih (position + 1) (reported after position report) (heard ++ [report])
              rw [List.append_assoc] at later
              exact congrArg (fun run => (((report :: run.1.1.1, run.1.1.2),
                (spent, numOperations) :: run.1.2.1, run.1.2.2), run.2)) later

/-- The one who waits for reports hears those of the run, which does not depend on it. -/
theorem runListening_eq (runner : ThreadRunner) (schedule : Nat → List Move)
    (workloads : List (ω × Nat)) (state : RunState)
    : runner.runListening schedule workloads state
        = (runner.runSchedule schedule 0 workloads state,
          (runner.runSchedule schedule 0 workloads state).1.1) :=
  runAll_listening workloads 0 state []

/-- How a run from a state on went that ended so, and what happened in it. -/
structure RunsInOrder (runner : ThreadRunner) (schedule : Nat → List Move) (position : Nat)
    (workloads : List (ω × Nat)) (state : RunState) (ending : Except BenchError Unit)
    (events : List (Nat × RunEvent)) : Prop where
  whole
    : (runner.runSchedule schedule position workloads state).2.2.events = state.events ++ events
  ordered : (events.map (·.1)).Pairwise (· ≤ ·)
  beyond : ∀ event ∈ events, position ≤ event.1
  finished
    : ∀ index report,
      (runner.runSchedule schedule position workloads state).1.1[index]? = some report →
      ∃ workload numOperations spent own, workloads[index]? = some (workload, numOperations)
        ∧ (runner.runSchedule schedule position workloads state).2.1[index]?
          = some (spent, numOperations)
        ∧ Stage runner (schedule (position + index)) workload numOperations
          (runner.stateAfter schedule position workloads state index).server own (.ok report) spent
        ∧ eventsAt (position + index) events = own ++ [.report report]
  last
    : match ending with
      | .ok () =>
        (runner.runSchedule schedule position workloads state).1.1.length = workloads.length
      | .error error =>
        let count := (runner.runSchedule schedule position workloads state).1.1.length
        ∃ workload numOperations spent, workloads[count]? = some (workload, numOperations)
          ∧ (runner.runSchedule schedule position workloads state).2.1[count]?
            = some (spent, numOperations)
          ∧ Stage runner (schedule (position + count)) workload numOperations
            (runner.stateAfter schedule position workloads state count).server
            (eventsAt (position + count) events) (.error error) spent
  untouched
    : ∀ index, (runner.runSchedule schedule position workloads state).1.1.length < index →
      (runner.runSchedule schedule position workloads state).2.1[index]? = workloads[index]?
      ∧ eventsAt (position + index) events = []

namespace RunsInOrder

/-- A run that ends with its first workload leaves the others alone. -/
theorem of_error {error : BenchError} {own : List RunEvent} (rest : List (ω × Nat))
    (answered : runner.runMoves (schedule position) position workload numOperations state
      = (some (.error error), spent, after))
    (events : after.events = state.events ++ own.map (position, ·))
    (stage : Stage runner (schedule position) workload numOperations state.server own
      (.error error) spent)
    : runner.RunsInOrder schedule position ((workload, numOperations) :: rest) state
        (.error error) (own.map (position, ·) ++ []) := by
  have run := runSchedule_of_error rest answered
  refine ⟨?_, ordered_block own (List.forall_mem_nil _) .nil, fun event member => ?_,
    fun index report found => ?_, ?_, fun index later => ?_⟩
  · rw [run, List.append_nil]
    exact events
  · rw [List.append_nil] at member
    obtain ⟨_, _, rfl⟩ := List.mem_map.mp member
    exact Nat.le_refl _
  · rw [run] at found
    cases found
  · rw [run]
    refine ⟨workload, numOperations, spent, rfl, rfl, ?_⟩
    rw [List.length_nil, Nat.add_zero, eventsAt_block own (List.forall_mem_nil _)]
    exact stage
  · rw [run] at later ⊢
    obtain ⟨index, rfl⟩ := Nat.exists_eq_succ_of_ne_zero (Nat.ne_of_gt later)
    exact ⟨rfl, eventsAt_beyond_block own index⟩

/-- A run goes on in order after a workload that finished. -/
theorem of_ok {report : Report} {own : List RunEvent} {events : List (Nat × RunEvent)}
    (answered : runner.runMoves (schedule position) position workload numOperations state
      = (some (.ok report), spent, after))
    (begun : after.events = state.events ++ own.map (position, ·))
    (stage : Stage runner (schedule position) workload numOperations state.server own
      (.ok report) spent)
    (later : runner.RunsInOrder schedule (position + 1) rest (reported after position report)
      ending events)
    : runner.RunsInOrder schedule position ((workload, numOperations) :: rest) state ending
        ((own ++ [RunEvent.report report]).map (position, ·) ++ events) := by
  have run := runSchedule_of_ok rest answered
  have stages := stateAfter_succ rest answered
  have place (index : Nat) : position + (index + 1) = position + 1 + index := by omega
  refine ⟨?_, ordered_block _ later.beyond later.ordered, fun event member => ?_,
    fun index other found => ?_, ?_, fun index beyond => ?_⟩
  · rw [run]
    refine later.whole.trans ?_
    simp [reported, begun]
  · rcases List.mem_append.mp member with now | next
    · obtain ⟨_, _, rfl⟩ := List.mem_map.mp now
      exact Nat.le_refl _
    · exact Nat.le_of_succ_le (later.beyond event next)
  · rw [run] at found ⊢
    cases index with
    | zero =>
        cases found
        exact ⟨workload, numOperations, spent, own, rfl, rfl, stage, eventsAt_block _ later.beyond⟩
    | succ index =>
        obtain ⟨workload, numOperations, spent, own, listed, left, stage, happened⟩ :=
          later.finished index other found
        refine ⟨workload, numOperations, spent, own, listed, left, ?_, ?_⟩
        · rw [stages, place]
          exact stage
        · rw [eventsAt_beyond_block]
          exact happened
  · have last := later.last
    rw [run]
    cases ending with
    | ok => exact congrArg (· + 1) last
    | error error =>
        obtain ⟨workload, numOperations, spent, listed, left, stage⟩ := last
        refine ⟨workload, numOperations, spent, listed, left, ?_⟩
        rw [List.length_cons, stages, place, ← place, eventsAt_beyond_block, place]
        exact stage
  · rw [run] at beyond ⊢
    obtain ⟨index, rfl⟩ := Nat.exists_eq_succ_of_ne_zero (Nat.ne_zero_of_lt beyond)
    rw [Nat.succ_eq_add_one, eventsAt_beyond_block]
    exact later.untouched index (Nat.lt_of_succ_lt_succ beyond)

end RunsInOrder

/-- A run that has an end goes through its workloads in order, by induction on the workloads. -/
theorem runsInOrder
    (ended : (runner.runSchedule schedule position workloads state).1.2 = some ending)
    : ∃ events, runner.RunsInOrder schedule position workloads state ending events := by
  induction workloads generalizing position state with
  | nil =>
      cases ended
      refine ⟨[], (List.append_nil _).symm, .nil, List.forall_mem_nil _, ?_, rfl,
        fun _ _ => ⟨rfl, rfl⟩⟩
      exact fun _ _ found => nomatch found
  | cons entry rest ih =>
      obtain ⟨workload, numOperations⟩ := entry
      cases answer : (runner.runMoves (schedule position) position workload numOperations
        state).1 with
      | none =>
          have run := runSchedule_of_none rest (Prod.ext answer rfl)
          rw [run] at ended
          cases ended
      | some result =>
          obtain ⟨own, happened, stage⟩ := runMoves_stage answer
          cases result with
          | error error =>
              have answered
                  : runner.runMoves (schedule position) position workload numOperations state
                    = (some (.error error), _, _) :=
                Prod.ext answer rfl
              have run := runSchedule_of_error rest answered
              rw [run] at ended
              cases ended
              exact ⟨_, .of_error rest answered happened stage⟩
          | ok report =>
              have answered
                  : runner.runMoves (schedule position) position workload numOperations state
                    = (some (.ok report), _, _) :=
                Prod.ext answer rfl
              rw [runSchedule_of_ok rest answered] at ended
              obtain ⟨events, later⟩ := ih ended
              exact ⟨_, .of_ok answered happened stage later⟩

/-- What becomes of the workload at a place: it has a report, or it is the one that ends the run, or
it is left alone.
-/
theorem RunsInOrder.workload_cases
    {events : List (Nat × RunEvent)}
    (inOrder : runner.RunsInOrder schedule 0 workloads state ending events)
    (listed : workloads[position]? = some (workload, numOperations))
    : let run := runner.runSchedule schedule 0 workloads state
      let server := (runner.stateAfter schedule 0 workloads state position).server
      ∃ spent, run.2.1[position]? = some (spent, numOperations)
        ∧ (position < run.1.1.length → ∃ own report, run.1.1[position]? = some report
          ∧ eventsAt position events = own ++ [.report report]
          ∧ Stage runner (schedule position) workload numOperations server own (.ok report) spent)
        ∧ (position = run.1.1.length → ∃ error, ending = .error error
          ∧ Stage runner (schedule position) workload numOperations server
            (eventsAt position events) (.error error) spent)
        ∧ (run.1.1.length < position → eventsAt position events = [] ∧ spent = workload) := by
  intro run server
  rcases Nat.lt_trichotomy position run.1.1.length with before | here | beyond
  · obtain ⟨workload, numOperations, spent, own, same, left, stage, happened⟩ :=
      inOrder.finished position _ (List.getElem?_eq_getElem before)
    cases listed.symm.trans same
    rw [Nat.zero_add] at stage happened
    exact ⟨spent, left, fun _ => ⟨own, _, List.getElem?_eq_getElem before, happened, stage⟩,
      fun here => absurd here (Nat.ne_of_lt before),
      fun beyond => absurd beyond (Nat.lt_asymm before)⟩
  · have last := inOrder.last
    cases ending with
    | ok =>
        have inside := (List.getElem?_eq_some_iff.mp listed).1
        exact absurd (here.trans last) (Nat.ne_of_lt inside)
    | error error =>
        obtain ⟨workload, numOperations, spent, same, left, stage⟩ := last
        rw [Nat.zero_add] at stage
        rw [← here] at same left stage
        cases listed.symm.trans same
        exact ⟨spent, left, fun before => absurd here (Nat.ne_of_lt before),
          fun _ => ⟨error, rfl, stage⟩, fun beyond => absurd here (Nat.ne_of_gt beyond)⟩
  · obtain ⟨left, happened⟩ := inOrder.untouched position beyond
    rw [Nat.zero_add] at happened
    exact ⟨workload, left.trans listed, fun before => absurd before (Nat.lt_asymm beyond),
      fun here => absurd here (Nat.ne_of_gt beyond), fun _ => ⟨happened, rfl⟩⟩

end ThreadRunner

end LineageLoad
