import LineageLoad.Proofs.Runner.Exactness
import LineageLoad.Proofs.Runner.Loads
import LineageLoad.Proofs.Runner.Scripts
import LineageLoad.Proofs.Workload.Orders
import LineageLoad.Proofs.Workload.Preparation

/-!
A run of workers leaves what its operations leave if they are executed one after the other in the
order of its log. All orders of the same operations leave the same contents, up to the ids of new
rows and the order of new events, and so do all runs that attempt the same operations.
-/

namespace LineageLoad

-----------------------------------------------------------------------------------------
-- Items in a given order
-----------------------------------------------------------------------------------------

section

variable {α : Type} {items : List α} {indices : List Nat}

theorem filterMap_getElem?_range (items : List α) (count : Nat)
    : (List.range count).filterMap (items[·]?) = items.take count := by
  induction count with
  | zero => rfl
  | succ count ih =>
      rw [List.range_succ, List.filterMap_append, ih, List.take_add_one]
      cases found : items[count]? with
      | none => simp [found]
      | some item => simp [found]

/-- The items at different indices are some of all items, in some order. -/
theorem filterMap_getElem?_subperm (apart : indices.Nodup)
    (inside : ∀ index ∈ indices, index < items.length)
    : (indices.filterMap (items[·]?)).Subperm items := by
  have subset : indices ⊆ List.range items.length := fun index member =>
    List.mem_range.mpr (inside index member)
  obtain ⟨sorted, perm, sublist⟩ := List.subperm_of_subset apart subset
  have listed := sublist.filterMap (items[·]?)
  rw [filterMap_getElem?_range, List.take_length] at listed
  exact ⟨_, perm.filterMap _, listed⟩

/-- There is nothing at an index beyond the items. -/
theorem filterMap_getElem?_filter (items : List α) (indices : List Nat)
    : (indices.filter (· < items.length)).filterMap (items[·]?)
        = indices.filterMap (items[·]?) := by
  rw [List.filterMap_filter]
  refine List.filterMap_congr fun index _ => ?_
  split
  · rfl
  · next outside => exact (List.getElem?_eq_none (by simpa using outside)).symm

end

/-- The calls at the given indices, in the order of these. -/
def callsAt (calls : List Call) (indices : List Nat) : List Call := indices.filterMap (calls[·]?)

theorem serveAll_callsAt (db : Database) (calls : List Call) (indices more : List Nat)
    : (db.serveAll (callsAt calls indices)).serveAll (callsAt calls more)
        = db.serveAll (callsAt calls (indices ++ more)) := by
  rw [Database.serveAll, Database.serveAll, Database.serveAll, ← List.foldl_append, callsAt,
    callsAt, callsAt, ← List.filterMap_append]

/-- Calls at different indices are open if all calls are. -/
theorem Load.Pending.callsAt {load : Load Sampler} {db : Database} {calls : List Call}
    {indices : List Nat} (pending : load.Pending db calls) (apart : indices.Nodup)
    (inside : ∀ index ∈ indices, index < calls.length)
    : load.Pending db (callsAt calls indices) := by
  obtain ⟨some, perm, sublist⟩ := filterMap_getElem?_subperm apart inside
  exact (pending.sublist sublist).perm perm

namespace GeneratedWorkload

/-- Executes the items with the given indices one after the other, whether they succeed or not. -/
def executeAll {κ γ σ : Type} [Generator κ] [WordSource γ] (workload : GeneratedWorkload κ γ)
    (store : Store σ) (indices : List Nat) (state : σ) : σ :=
  indices.foldl (fun state index => (workload.execute index store state).2) state

variable {workload : LoadWorkload} {name : String} {connection : Connection} {db : Database}
  {server : Server}

/-- Executing an item has the effect of its call, if there is one. -/
theorem execute_reaches (prepared : workload.isPrepared = true) (index : Nat)
    (reaches : server.Reaches name connection db)
    : (workload.execute index (Server.store connection) server).2.Reaches name connection
        (db.serveAll (callsAt (workload.items.map (·.call)) [index])) := by
  unfold execute
  rw [prepared, callsAt, List.filterMap_cons, List.filterMap_nil, List.getElem?_map]
  cases workload.items[index]? with
  | none => exact reaches
  | some item => exact (reaches.serve item.call).2

/-- Executing items has the effect of their calls, by induction on the indices. -/
theorem executeAll_reaches (prepared : workload.isPrepared = true) (indices : List Nat)
    (reaches : server.Reaches name connection db)
    : (workload.executeAll (Server.store connection) indices server).Reaches name connection
        (db.serveAll (callsAt (workload.items.map (·.call)) indices)) := by
  induction indices generalizing server db with
  | nil => exact reaches
  | cons index rest ih =>
      have later := ih (execute_reaches prepared index reaches)
      rwa [serveAll_callsAt] at later

/-- Nothing is executed without a preparation, by induction on the indices. -/
theorem executeAll_of_unprepared {κ γ σ : Type} [Generator κ] [WordSource γ]
    {workload : GeneratedWorkload κ γ} (unprepared : workload.isPrepared = false)
    (store : Store σ) (indices : List Nat) (state : σ)
    : workload.executeAll store indices state = state := by
  induction indices with
  | nil => rfl
  | cons index rest ih =>
      have first : (workload.execute index store state).2 = state := by
        unfold execute
        rw [unprepared]
        rfl
      rwa [executeAll, List.foldl_cons, first]

/-- Contents that are asked directly become what the calls make of them, by induction on the
indices.
-/
theorem executeAll_eq {κ γ : Type} [Generator κ] [WordSource γ] {workload : GeneratedWorkload κ γ}
    (prepared : workload.isPrepared = true) (indices : List Nat) (db : Database)
    : workload.executeAll Database.store indices db
        = db.serveAll (callsAt (workload.items.map (·.call)) indices) := by
  induction indices generalizing db with
  | nil => rfl
  | cons index rest ih =>
      have first : (workload.execute index Database.store db).2
          = db.serveAll (callsAt (workload.items.map (·.call)) [index]) := by
        unfold execute
        rw [prepared, callsAt, List.filterMap_cons, List.filterMap_nil, List.getElem?_map]
        cases workload.items[index]? with
        | none => rfl
        | some item => rfl
      have later := ih (workload.execute index Database.store db).2
      rw [first, serveAll_callsAt] at later
      rw [← List.singleton_append, ← later, ← first]
      rfl

end GeneratedWorkload

-----------------------------------------------------------------------------------------
-- Runs of workers
-----------------------------------------------------------------------------------------

/-- The operations that were attempted, in the order of the attempts. -/
def Pool.indices {ω : Type} (pool : Pool ω) : List Nat := pool.log.map (·.index)

/-- An attempt leaves a worker on its connection or ends it. -/
theorem Worker.working_of_settle {worker : Worker} {limit : Option Nat} {workload : String}
    {outcome : Outcome} {totalDone : Nat} {now : Instant} {connection : Connection}
    (working
      : (worker.settle limit workload outcome totalDone now).status = .working connection)
    : worker.status = .working connection := by
  cases outcome with
  | succeeded op => exact working
  | failed error =>
      dsimp only [settle] at working
      split at working
      · cases working
      · exact working
  | panicked => cases working

/-- A pool left what the calls (calls) leave that its log says were attempted. -/
structure Pool.Replays (calls : List Call) (name : String) (connection : Connection)
    (base : Database) (pool : Pool LoadWorkload) : Prop where
  prepared : pool.workload.isPrepared = true
  items : pool.workload.items.map (·.call) = calls
  connected : ∀ worker ∈ pool.workers, ∀ other, worker.status = .working other → other = connection
  contents
    : pool.server.Reaches name connection (base.serveAll (callsAt calls pool.indices))

namespace Pool.Replays

variable {calls : List Call} {name : String} {connection : Connection} {base : Database}
  {runner : ThreadRunner} {pool : Pool LoadWorkload}

theorem start {workload : LoadWorkload} {server : Server} (prepared : workload.isPrepared = true)
    (reaches : server.Reaches name connection base) (runner : ThreadRunner) (numOperations : Nat)
    : Pool.Replays (workload.items.map (·.call)) name connection base
        { workload, server, workers := runner.workers numOperations } where
  prepared := prepared
  items := rfl
  connected worker member other status := by
    obtain ⟨_, _, rfl⟩ := List.mem_map.mp member
    cases status
  contents := reaches

/-- An attempt has the effect of the call of its operation. -/
theorem attempt (replays : pool.Replays calls name connection base) {move : Move} {worker : Worker}
    {other : Connection} (found : pool.workers[move.worker]? = some worker)
    (working : worker.status = .working other)
    : (pool.attempt runner move worker other).Replays calls name connection base := by
  have own := replays.connected worker (List.mem_of_getElem? found)
  obtain rfl := own other working
  have reached := GeneratedWorkload.execute_reaches replays.prepared worker.next replays.contents
  rw [replays.items, serveAll_callsAt] at reached
  have left : (pool.execution move worker other).2
      = (pool.workload, (pool.workload.execute worker.next (Server.store other) pool.server).2) :=
    rfl
  have indices
      : (pool.attempt runner move worker other).indices = pool.indices ++ [worker.next] := by
    rw [Pool.indices, pool.attempt_log, List.map_append]
    rfl
  refine ⟨?_, ?_, ?_, ?_⟩
  · rw [attempt_eq, left]
    exact replays.prepared
  · rw [attempt_eq, left]
    exact replays.items
  · rw [attempt_eq]
    exact forall_mem_set replays.connected fun _ status => own _ (Worker.working_of_settle status)
  · rw [indices, attempt_eq, left]
    exact reached

/-- Every move keeps it so, by the cases of a step. -/
theorem step (replays : pool.Replays calls name connection base)
    (shared : runner.connection = .inMemory name) (move : Move)
    : (pool.step runner move).Replays calls name connection base := by
  have stepped := step_cases runner pool move
  generalize pool.step runner move = next at stepped ⊢
  cases stepped with
  | idle => exact replays
  | attempted found working => exact replays.attempt found working
  | connected found =>
      rw [shared, replays.contents.connect]
      refine { replays with
        connected := forall_mem_set replays.connected fun _ status => ?_ }
      exact (WorkerStatus.working.inj status).symm
  | finished found =>
      exact { replays with
        connected := forall_mem_set replays.connected fun _ status => by cases status }

end Pool.Replays

namespace Pool.Serving

variable {load : Load Sampler} {calls : List Call} {name : String} {connection : Connection}
  {first : Database} {runner : ThreadRunner} {share : Nat} {pool : Pool LoadWorkload}

/-- While no attempt fails, no worker attempts an operation twice. -/
theorem ownAttempts_nodup
    (serving : pool.Serving load calls name connection first runner share) (position : Nat)
    : ((ownAttempts position pool.log).map (·.index)).Nodup := by
  have all : (ownAttempts position pool.log).filter (·.hasSucceeded)
      = ownAttempts position pool.log :=
    List.filter_eq_self.mpr fun attempt member =>
      serving.succeeded attempt (List.mem_of_mem_filter member)
  cases found : pool.workers[position]? with
  | none =>
      have outside : runner.numThreads ≤ position :=
        serving.onCourse.count ▸ List.getElem?_eq_none_iff.mp found
      have none : ownAttempts position pool.log = [] := by
        refine List.filter_eq_nil_iff.mpr fun attempt member own => ?_
        have inside := serving.onCourse.owned attempt member
        rw [of_decide_eq_true own] at inside
        exact absurd inside (Nat.not_lt.mpr outside)
      rw [none]
      exact List.nodup_nil
  | some worker =>
      cases (serving.onCourse.workers position worker found).stands with
      | busy course =>
          rw [← all, course.successes]
          exact List.nodup_range'
      | finished course =>
          rw [← all, course.successes]
          exact List.nodup_range'
      | failed _ _ _ _ status =>
          exact absurd status (serving.unfailed worker (List.mem_of_getElem? found) _)

/-- While no attempt fails, no operation is attempted twice. -/
theorem indices_nodup (serving : pool.Serving load calls name connection first runner share)
    : pool.indices.Nodup := by
  refine List.nodup_iff_count_le_one.mpr fun index => ?_
  rw [indices, ← length_attemptsAt, serving.onCourse.attemptsAt_eq, length_attemptsAt]
  exact List.nodup_iff_count_le_one.mp (serving.ownAttempts_nodup _) index

end Pool.Serving

-----------------------------------------------------------------------------------------
-- Prepared workloads
-----------------------------------------------------------------------------------------

/-- A workload holds (count) items of a load, whose requests are open for the contents that a
connection reaches.
-/
structure GeneratedWorkload.IsReady (workload : LoadWorkload) (load : Load Sampler) (count : Nat)
    (name : String) (connection : Connection) (server : Server) (base : Database) : Prop where
  prepared : workload.isPrepared = true
  length : workload.items.length = count
  reaches : server.Reaches name connection base
  sound : base.Sound
  pending : load.Pending base (workload.items.map (·.call))

namespace GeneratedWorkload.IsReady

variable {workload : LoadWorkload} {load : Load Sampler} {count : Nat} {name : String}
  {connection : Connection} {server : Server} {base : Database} {runner : ThreadRunner}

/-- A workload that was prepared is ready. -/
theorem of_prepare {db : Database} (holds : server.Holds name db) (sound : db.Sound)
    (succeeded
      : (workload.prepare (Server.store (server.connect (.inMemory name)).1)
          (server.connect (.inMemory name)).2).1.1 = .ok ())
    : let opened := server.connect (.inMemory name)
      let prepared := (workload.prepare (Server.store opened.1) opened.2).2
      prepared.1.IsReady workload.generator workload.numOperations name opened.1 prepared.2
        (prepared.2.database opened.1) := by
  rcases workload.prepare_cases holds.connect sound with ⟨error, refused, _⟩ | ⟨_, base, ready⟩
  · cases succeeded.symm.trans refused
  · obtain ⟨reaches, kept, length, isOpen⟩ := ready
    intro opened prepared
    rw [reaches.database_eq]
    exact ⟨isOpen.prepared, length, reaches, kept, isOpen.pending⟩

/-- Different operations leave contents that do not depend on their order. -/
theorem sameUpTo (ready : workload.IsReady load count name connection server base)
    {first second : List Nat} (apart : first.Nodup) (inside : ∀ index ∈ first, index < count)
    (perm : first.Perm second)
    : base.SameUpTo (base.serveAll (callsAt (workload.items.map (·.call)) first))
        (base.serveAll (callsAt (workload.items.map (·.call)) second)) := by
  refine (ready.pending.callsAt apart fun index member => ?_).serveAll_perm ready.sound
    (perm.filterMap _)
  rw [List.length_map, ready.length]
  exact inside index member

/-- A pool of workers replays its log, in which all attempts succeed and none is made twice. -/
theorem run (ready : workload.IsReady load count name connection server base)
    (shared : runner.connection = .inMemory name) (positive : runner.maxAttempts ≠ some 0)
    (moves : List Move)
    : let pool := Pool.run runner { workload, server, workers := runner.workers count } moves
      pool.Replays (workload.items.map (·.call)) name connection base
      ∧ (∀ attempt ∈ pool.log, attempt.hasSucceeded)
      ∧ pool.indices.Nodup ∧ ∀ index ∈ pool.indices, index < count := by
  have within : runner.numThreads * runner.opsPerThread count ≤ count :=
    Nat.mul_div_le count runner.numThreads
  have enough : runner.numThreads * runner.opsPerThread count
      ≤ (workload.items.map (·.call)).length := by
    rwa [List.length_map, ready.length]
  intro pool
  have replays : pool.Replays (workload.items.map (·.call)) name connection base :=
    Pool.run_induction (.start ready.prepared ready.reaches runner count)
      (fun _ move replays => replays.step shared move) moves
  have serving : pool.Serving load (workload.items.map (·.call)) name connection base runner
      (runner.opsPerThread count) :=
    Pool.run_induction (.start ready.prepared ready.reaches ready.sound ready.pending runner count)
      (fun _ move serving => serving.step shared positive enough move) moves
  refine ⟨replays, serving.succeeded, serving.indices_nodup, fun index member => ?_⟩
  obtain ⟨attempt, made, rfl⟩ := List.mem_map.mp member
  exact Nat.lt_of_lt_of_le (serving.onCourse.worker_eq made).2 within

end GeneratedWorkload.IsReady

namespace ThreadRunner

variable {runner : ThreadRunner} {workload : LoadWorkload} {name : String}

/-- A workload is prepared on a connection of its own. -/
theorem start_eq (shared : runner.connection = .inMemory name) (numOperations : Nat)
    (server : Server)
    : runner.start workload numOperations server
        = let opened := server.connect (.inMemory name)
          let prepared := workload.prepare (Server.store opened.1) opened.2
          (prepared.1,
            { workload := prepared.2.1, server := prepared.2.2
              workers := runner.workers numOperations }) := by
  unfold start
  rw [shared]
  rfl

/-- A run with a report attempted as many operations as it reports, from the first one on. -/
theorem mem_indices_iff (positive : runner.maxAttempts ≠ some 0) {moves : List Move}
    {position numOperations : Nat} {state : RunState} {report : Report}
    (returned : (runner.runMoves moves position workload numOperations state).1
      = some (.ok report)) (index : Nat)
    : index ∈ (runner.poolAfter moves workload numOperations state.server).indices
        ↔ index < report.operations := by
  obtain ⟨_, stats, handed, rfl⟩ := runMoves_eq_ok returned
  have onCourse := poolAfter_onCourse positive moves workload numOperations state.server
  have finished := (Pool.result?_eq_ok handed).2
  have exact := onCourse.exactlyOnce positive finished
  have done : (stats.report (Workload.name workload)).operations
      = runner.numThreads * runner.opsPerThread numOperations :=
    (onCourse.tallies handed).done.trans (onCourse.countP_hasSucceeded finished)
  rw [done]
  constructor
  · intro member
    obtain ⟨attempt, made, rfl⟩ := List.mem_map.mp member
    exact exact.inside attempt made
  · intro inside
    obtain ⟨failures, success, attempts, _⟩ := exact.once index inside
    have made : success ∈ attemptsAt index _ := attempts ▸ List.mem_append_right _ (by simp)
    obtain ⟨member, same⟩ := List.mem_filter.mp made
    exact List.mem_map.mpr ⟨success, member, of_decide_eq_true same⟩

end ThreadRunner

namespace GeneratedWorkload

/-- Take a workload of a load that was prepared on the database of a name, to whose contents calls
have led. In any two orders the same operations leave contents that are equal up to the ids of the
rows that they add and the order of the events that they store. A run of workers, as far as it has
come, succeeds with different operations and leaves what these leave in the order of its log. So two
runs leave such equal contents if they attempt the same operations, and in particular if both have
reports and these count as many, whatever the numbers of workers and their moves are.
-/
theorem orders_agree {name : String} {state : RunState} {db : Database}
    (holds : state.server.Holds name db) (reachable : db.Reachable) (workload : LoadWorkload)
    (succeeded
      : (workload.prepare (Server.store (state.server.connect (.inMemory name)).1)
          (state.server.connect (.inMemory name)).2).1.1 = .ok ())
    : let opened := state.server.connect (.inMemory name)
      let prepared := (workload.prepare (Server.store opened.1) opened.2).2
      let contents (indices : List Nat) :=
        (prepared.1.executeAll (Server.store opened.1) indices prepared.2).database opened.1
      let agree (first second : Database) :=
        (prepared.2.database opened.1).SameUpTo first second ∧ first.LooksLike second
      let count := workload.numOperations
      (∀ first second : List Nat, first.Nodup → (∀ index ∈ first, index < count) →
        first.Perm second → agree (contents first) (contents second))
      ∧ (∀ config (runner : ThreadRunner) moves,
          ThreadRunner.new? (.inMemory name) config = .ok runner →
          let pool := runner.poolAfter moves workload count state.server
          (∀ attempt ∈ pool.log, attempt.hasSucceeded) ∧ pool.indices.Nodup
          ∧ (∀ index ∈ pool.indices, index < count)
          ∧ pool.server.database opened.1 = contents pool.indices)
      ∧ ∀ config others (runner other : ThreadRunner) moves rest,
          ThreadRunner.new? (.inMemory name) config = .ok runner →
          ThreadRunner.new? (.inMemory name) others = .ok other →
          let pool := runner.poolAfter moves workload count state.server
          let again := other.poolAfter rest workload count state.server
          ((∀ index, index ∈ pool.indices ↔ index ∈ again.indices) →
            agree (pool.server.database opened.1) (again.server.database opened.1))
          ∧ ∀ position place report summary,
              (runner.runMoves moves position workload count state).1 = some (.ok report) →
              (other.runMoves rest place workload count state).1 = some (.ok summary) →
              report.operations = summary.operations →
                agree
                  ((runner.runMoves moves position workload count state).2.2.server.database
                    opened.1)
                  ((other.runMoves rest place workload count state).2.2.server.database
                    opened.1) := by
  intro opened prepared contents agree count
  have ready : prepared.1.IsReady workload.generator count name opened.1 prepared.2
      (prepared.2.database opened.1) := .of_prepare holds reachable.sound succeeded
  have executed (indices : List Nat)
      : contents indices = Database.serveAll _ (callsAt (prepared.1.items.map (·.call)) indices) :=
    (executeAll_reaches ready.prepared indices ready.reaches).database_eq
  have orders (first second : List Nat) (apart : first.Nodup)
      (inside : ∀ index ∈ first, index < count) (perm : first.Perm second)
      : agree (contents first) (contents second) := by
    have same := ready.sameUpTo apart inside perm
    rw [← executed, ← executed] at same
    exact ⟨same, same.looksLike⟩
  have runs (config : ThreadEnvConfig) (runner : ThreadRunner) (moves : List Move)
      (made : ThreadRunner.new? (.inMemory name) config = .ok runner)
      : let pool := runner.poolAfter moves workload count state.server
        (∀ attempt ∈ pool.log, attempt.hasSucceeded) ∧ pool.indices.Nodup
        ∧ (∀ index ∈ pool.indices, index < count)
        ∧ pool.server.database opened.1 = contents pool.indices := by
    obtain ⟨rfl, _, positive⟩ := ThreadRunner.new?_eq_ok made
    unfold ThreadRunner.poolAfter
    rw [ThreadRunner.start_eq rfl]
    obtain ⟨replays, succeeded, apart, inside⟩ := ready.run rfl positive moves
    exact ⟨succeeded, apart, inside, replays.contents.database_eq.trans (executed _).symm⟩
  refine ⟨orders, runs, fun config others runner other moves rest made again => ?_⟩
  obtain ⟨_, apart, inside, left⟩ := runs config runner moves made
  obtain ⟨_, apart', _, left'⟩ := runs others other rest again
  obtain ⟨_, _, positive⟩ := ThreadRunner.new?_eq_ok made
  obtain ⟨_, _, positive'⟩ := ThreadRunner.new?_eq_ok again
  intro pool twin
  have covering (covers : ∀ index, index ∈ pool.indices ↔ index ∈ twin.indices)
      : agree (pool.server.database opened.1) (twin.server.database opened.1) := by
    rw [left, left']
    exact orders _ _ apart inside ((List.perm_ext_iff_of_nodup apart apart').mpr covers)
  refine ⟨covering, fun position place report summary returned returned' operations => ?_⟩
  rw [(ThreadRunner.runMoves_of_prepared moves position
      (ThreadRunner.runMoves_eq_ok returned).1).2.1,
    (ThreadRunner.runMoves_of_prepared rest place (ThreadRunner.runMoves_eq_ok returned').1).2.1]
  refine covering fun index => ?_
  rw [ThreadRunner.mem_indices_iff positive returned, operations,
    ThreadRunner.mem_indices_iff positive' returned']

/-- A workload that creates three types. -/
def threeTypes : LoadWorkload where
  generator := .fillTypes .artifact false ⟨1, 2, by decide⟩
  numOperations := 3
  source := .ofSeed 7

/-- A server without databases. -/
def nothingYet : RunState where
  server := .empty

/-- The connection on which the types are prepared. -/
def typesOpened : Connection × Server := nothingYet.server.connect (.inMemory "types")

/-- How the types are prepared. -/
def typesPrepared : (Except BenchError Unit × List Note) × LoadWorkload × Server :=
  threeTypes.prepare (Server.store typesOpened.1) typesOpened.2

/-- The contents after the types with the given indices are created in this order. -/
def typesInOrder (indices : List Nat) : Database :=
  (typesPrepared.2.1.executeAll (Server.store typesOpened.1) indices typesPrepared.2.2).database
    typesOpened.1

/-- How the types are created by workers that take the given turns. -/
def createTypes (numThreads : Nat) (turns : List Nat)
    : Option (Except BenchError Report) × LoadWorkload × RunState :=
  ThreadRunner.runMoves ⟨.inMemory "types", numThreads, some 3⟩ (turns.map ({ worker := · })) 0
    threeTypes threeTypes.numOperations nothingYet

/-- The contents after the types are created by these workers. -/
def typesByWorkers (numThreads : Nat) (turns : List Nat) : Database :=
  (createTypes numThreads turns).2.2.server.database typesOpened.1

/-- The types have other ids if they are executed in another order, or by three workers rather than
one, but otherwise the contents are the same.
-/
theorem orders_agree_threeTypes
    : typesPrepared.1.1 = .ok ()
      ∧ (typesInOrder [0, 2]).typesOf .artifact ≠ (typesInOrder [2, 0]).typesOf .artifact
      ∧ (typesPrepared.2.2.database typesOpened.1).SameUpTo (typesInOrder [0, 2])
        (typesInOrder [2, 0])
      ∧ (typesInOrder [0, 2]).LooksLike (typesInOrder [2, 0])
      ∧ (typesByWorkers 1 [0, 0, 0, 0, 0]).typesOf .artifact
        ≠ (typesByWorkers 3 [2, 0, 1, 2, 1, 0, 1, 0, 2]).typesOf .artifact
      ∧ (typesPrepared.2.2.database typesOpened.1).SameUpTo (typesByWorkers 1 [0, 0, 0, 0, 0])
        (typesByWorkers 3 [2, 0, 1, 2, 1, 0, 1, 0, 2])
      ∧ (typesByWorkers 1 [0, 0, 0, 0, 0]).LooksLike
        (typesByWorkers 3 [2, 0, 1, 2, 1, 0, 1, 0, 2]) := by
  have succeeded : typesPrepared.1.1 = .ok () := by decide +kernel
  have holds : nothingYet.server.Holds "types" .empty := by
    simp [Server.Holds, nothingYet, Server.empty]
  -- Both runs have a report of all three operations.
  have reports {answer : Option (Except BenchError Report)}
      (counted : answer.bind (·.toOption.map (·.operations)) = some 3)
      : ∃ report, answer = some (.ok report) ∧ report.operations = 3 := by
    cases answer with
    | none => cases counted
    | some result =>
        cases result with
        | error _ => cases counted
        | ok report => exact ⟨report, rfl, Option.some.inj counted⟩
  obtain ⟨report, returned, operations⟩ : ∃ report, (createTypes 1 [0, 0, 0, 0, 0]).1
      = some (.ok report) ∧ report.operations = 3 := reports (by decide +kernel)
  obtain ⟨summary, returned', operations'⟩ : ∃ report,
      (createTypes 3 [2, 0, 1, 2, 1, 0, 1, 0, 2]).1 = some (.ok report) ∧ report.operations = 3 :=
    reports (by decide +kernel)
  obtain ⟨orders, _, runs⟩ := orders_agree holds ⟨[], rfl⟩ threeTypes succeeded
  obtain ⟨same, looks⟩ := orders [0, 2] [2, 0] (by decide) (by decide) (by decide)
  obtain ⟨alike, likewise⟩ := (runs ⟨1, some 3⟩ ⟨3, some 3⟩ _ _ _ _ rfl rfl).2 0 0 report summary
    returned returned' (operations.trans operations'.symm)
  exact ⟨succeeded, by decide +kernel, same, looks, by decide +kernel, alike, likewise⟩

end GeneratedWorkload

end LineageLoad
