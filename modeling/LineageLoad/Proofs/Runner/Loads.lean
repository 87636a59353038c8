import LineageLoad.Benchmark
import LineageLoad.Proofs.Runner.Results
import LineageLoad.Proofs.Store.Connection
import LineageLoad.Proofs.Workload.Requests

/-!
Pools whose workers issue the requests of a load to the database of one name. In every order of the
moves each request is served, and the contents change by what the load does with that many requests.
-/

namespace LineageLoad

-----------------------------------------------------------------------------------------
-- Open requests of workers
-----------------------------------------------------------------------------------------

/-- The requests that a worker has still to issue. -/
def Worker.openCalls (calls : List Call) (worker : Worker) : List Call :=
  (calls.take worker.stop).drop worker.next

/-- A worker with a further operation has the request of that operation to issue first. -/
theorem Worker.openCalls_eq_cons {calls : List Call} {worker : Worker} {call : Call}
    (within : worker.next < worker.stop) (found : calls[worker.next]? = some call)
    : worker.openCalls calls = call :: (calls.take worker.stop).drop (worker.next + 1) := by
  have there : (calls.take worker.stop)[worker.next]? = some call := by
    rw [List.getElem?_take_of_lt within, found]
  obtain ⟨below, same⟩ := List.getElem?_eq_some_iff.mp there
  rw [openCalls, List.drop_eq_getElem_cons below, same]

/-- A worker that is replaced changes the open requests of all workers by its own. -/
theorem flatMap_set {α β : Type} {items : List α} {position : Nat} {item : α}
    (found : items[position]? = some item) (f : α → List β)
    : ∃ before after, items.flatMap f = before ++ f item ++ after
        ∧ ∀ replaced, (items.set position replaced).flatMap f = before ++ f replaced ++ after := by
  obtain ⟨below, rfl⟩ := List.getElem?_eq_some_iff.mp found
  refine ⟨(items.take position).flatMap f, (items.drop (position + 1)).flatMap f, ?_,
    fun replaced => ?_⟩
  · have split : items
        = items.take position ++ items[position] :: items.drop (position + 1) := by
      rw [← List.drop_eq_getElem_cons below, List.take_append_drop]
    conv_lhs => rw [split]
    rw [List.flatMap_append, List.flatMap_cons, ← List.append_assoc]
  · rw [List.set_eq_take_append_cons_drop, if_pos below]
    simp

/-- What holds of all elements of a list still does after one is replaced by another of which it
holds.
-/
theorem forall_mem_set {α : Type} {holds : α → Prop} {items : List α} {position : Nat} {item : α}
    (all : ∀ other ∈ items, holds other) (new : holds item)
    : ∀ other ∈ items.set position item, holds other := by
  intro other member
  rcases List.mem_or_eq_of_mem_set member with old | rfl
  · exact all other old
  · exact new

theorem flatMap_openCalls_set {calls : List Call} {workers : List Worker} {position : Nat}
    {worker replaced : Worker} (found : workers[position]? = some worker)
    (next : replaced.next = worker.next) (stop : replaced.stop = worker.stop)
    : (workers.set position replaced).flatMap (Worker.openCalls calls)
        = workers.flatMap (Worker.openCalls calls) := by
  obtain ⟨before, after, whole, set⟩ := flatMap_set found (Worker.openCalls calls)
  rw [set, whole, Worker.openCalls, Worker.openCalls, next, stop]

/-- The workers share out the first requests, without a gap. By induction on their number. -/
theorem flatMap_openCalls_workers (calls : List Call) (runner : ThreadRunner)
    (numOperations : Nat)
    : (runner.workers numOperations).flatMap (Worker.openCalls calls)
        = calls.take (runner.numThreads * runner.opsPerThread numOperations) := by
  unfold ThreadRunner.workers
  rw [List.flatMap_map]
  generalize runner.opsPerThread numOperations = share
  induction runner.numThreads with
  | zero => simp
  | succ count ih =>
      rw [List.range_succ, List.flatMap_append, ih, List.flatMap_singleton]
      have smaller : count * share ≤ (count + 1) * share :=
        Nat.mul_le_mul_right share (Nat.le_succ count)
      -- The requests of the workers before are the first ones of a longer beginning.
      have first : calls.take (count * share)
          = (calls.take ((count + 1) * share)).take (count * share) := by
        rw [List.take_take, Nat.min_eq_left smaller]
      rw [first]
      exact List.take_append_drop _ _

/-- An item of a prepared workload whose call is served is executed successfully. -/
theorem GeneratedWorkload.execute_eq_ok {workload : LoadWorkload} {index : Nat} {item : WorkItem}
    {server : Server} {connection : Connection} (prepared : workload.isPrepared = true)
    (found : workload.items[index]? = some item) {reply : item.call.Reply}
    (served : ((Server.store connection).serve item.call server).1 = .ok reply)
    : workload.execute index (Server.store connection) server
        = (.ok item.bytes, ((Server.store connection).serve item.call server).2) := by
  unfold GeneratedWorkload.execute
  rw [prepared, found]
  change ((((Server.store connection).serve item.call server).1.mapError BenchError.store).map
    fun _ => item.bytes, _) = _
  rw [served]
  rfl

-----------------------------------------------------------------------------------------
-- Pools that serve a load
-----------------------------------------------------------------------------------------

/-- A pool that issues the requests (calls) of a load: all attempts so far were served by the
database of the name, which changed by as much since it held (first), and the requests that are left
are open.
-/
structure Pool.Serving (load : Load Sampler) (calls : List Call) (name : String)
    (connection : Connection) (first : Database) (runner : ThreadRunner) (share : Nat)
    (pool : Pool LoadWorkload) : Prop where
  onCourse : pool.OnCourse (fun _ => True) runner share
  prepared : pool.workload.isPrepared = true
  items : pool.workload.items.map (·.call) = calls
  connected : ∀ worker ∈ pool.workers, ∀ other, worker.status = .working other → other = connection
  succeeded : ∀ attempt ∈ pool.log, attempt.hasSucceeded = true
  unfailed : ∀ worker ∈ pool.workers, ∀ error, worker.status ≠ .failed error
  contents : ∃ db, pool.server.Reaches name connection db ∧ db.Sound
    ∧ load.Changes 0 pool.totalDone first db
    ∧ load.Pending db (pool.workers.flatMap (Worker.openCalls calls))

namespace Pool.Serving

variable {load : Load Sampler} {calls : List Call} {name : String} {connection : Connection}
  {first : Database} {runner : ThreadRunner} {share : Nat} {pool : Pool LoadWorkload}

/-- An open request is executed successfully, and the contents change by what it does. -/
theorem execution (serving : pool.Serving load calls name connection first runner share)
    (move : Move) {worker : Worker} {before after : List Call} {call : Call}
    (found : calls[worker.next]? = some call) {db : Database}
    (reaches : pool.server.Reaches name connection db) (sound : db.Sound)
    (pending : load.Pending db (before ++ call :: after))
    : (pool.execution move worker connection).1.ending = .succeeded
      ∧ (pool.execution move worker connection).2.1 = pool.workload
      ∧ ∃ next, (pool.execution move worker connection).2.2.Reaches name connection next
        ∧ next.Sound ∧ load.Changes 0 1 db next ∧ load.Pending next (before ++ after) := by
  obtain ⟨reply, next, served, changes, rest⟩ := pending.serve sound
  have kept := sound.serve call
  obtain ⟨answer, reached⟩ := reaches.serve call
  rw [served] at answer reached kept
  rw [← serving.items, List.getElem?_map, Option.map_eq_some_iff] at found
  obtain ⟨item, there, rfl⟩ := found
  have executed : pool.execution move worker connection
      = (.succeeded ⟨move.elapsed, item.bytes⟩, pool.workload,
        ((Server.store connection).serve item.call pool.server).2) := by
    unfold Pool.execution
    dsimp only [Workload.execute]
    rw [GeneratedWorkload.execute_eq_ok serving.prepared there answer]
  rw [executed]
  exact ⟨rfl, rfl, next, reached, kept, changes, rest⟩

/-- An attempt serves an open request: it succeeds, and one more is done. -/
theorem attempt (serving : pool.Serving load calls name connection first runner share)
    (positive : runner.maxAttempts ≠ some 0) (enough : runner.numThreads * share ≤ calls.length)
    {move : Move} {worker : Worker} {other : Connection}
    (found : pool.workers[move.worker]? = some worker) (working : worker.status = .working other)
    (within : worker.next < worker.stop)
    : (pool.attempt runner move worker other).Serving load calls name connection first runner
        share := by
  obtain rfl := serving.connected worker (List.mem_of_getElem? found) other working
  have range := (serving.onCourse.workers _ _ found).range
  have inside : (move.worker + 1) * share ≤ runner.numThreads * share :=
    Nat.mul_le_mul_right share
      (serving.onCourse.count ▸ (List.getElem?_eq_some_iff.mp found).1)
  have below : worker.next < calls.length := by omega
  have openCalls := Worker.openCalls_eq_cons within (List.getElem?_eq_getElem below)
  -- The request of the worker stands among the open ones between those of the other workers.
  obtain ⟨before, after, whole, set⟩ := flatMap_set found (Worker.openCalls calls)
  obtain ⟨db, reaches, sound, changes, pending⟩ := serving.contents
  rw [whole, openCalls, List.append_assoc, List.cons_append] at pending
  obtain ⟨succeeded, same, next, reached, kept, done, rest⟩ :=
    serving.execution move (List.getElem?_eq_getElem below) reaches sound pending
  have onCourse := serving.onCourse.attempt positive trivial found working within
  have log : (pool.attempt runner move worker other).log = pool.log ++ [_] :=
    pool.attempt_log move worker other
  rw [attempt_eq] at onCourse log ⊢
  rw [same] at onCourse log ⊢
  obtain ⟨op, outcome⟩ : ∃ op, (pool.execution move worker other).1 = .succeeded op := by
    cases outcome : (pool.execution move worker other).1 with
    | succeeded op => exact ⟨op, rfl⟩
    | failed error => simp [outcome, Outcome.ending] at succeeded
    | panicked => simp [outcome, Outcome.ending] at succeeded
  have counted : (pool.made move worker other).totalDone = pool.totalDone + 1 := by
    simp [made, succeeded]
  refine ⟨onCourse, serving.prepared, serving.items, ?_, ?_, ?_,
    ⟨next, reached, kept, counted ▸ changes.trans done, ?_⟩⟩
  · refine forall_mem_set serving.connected fun connection status => ?_
    rw [outcome, Worker.settle, working] at status
    exact (WorkerStatus.working.inj status).symm
  · rw [log]
    refine List.forall_mem_append.mpr ⟨serving.succeeded, List.forall_mem_singleton.mpr ?_⟩
    simp [Attempt.hasSucceeded, made, succeeded]
  · refine forall_mem_set serving.unfailed fun error status => ?_
    rw [outcome, Worker.settle, working] at status
    cases status
  · rw [set, outcome, List.append_assoc]
    exact rest

/-- A worker that changes its statistics and its status, without a failure and to no other
connection, leaves the pool serving.
-/
theorem setWorker (serving : pool.Serving load calls name connection first runner share)
    {position : Nat} {worker replaced : Worker} (found : pool.workers[position]? = some worker)
    (next : replaced.next = worker.next) (stop : replaced.stop = worker.stop)
    (connected : ∀ other, replaced.status = .working other → other = connection)
    (unfailed : ∀ error, replaced.status ≠ .failed error)
    (onCourse
      : Pool.OnCourse (fun _ => True) runner share
          { pool with workers := pool.workers.set position replaced })
    : Pool.Serving load calls name connection first runner share
        { pool with workers := pool.workers.set position replaced } where
  onCourse := onCourse
  prepared := serving.prepared
  items := serving.items
  connected := forall_mem_set serving.connected connected
  succeeded := serving.succeeded
  unfailed := forall_mem_set serving.unfailed unfailed
  contents := by
    obtain ⟨db, reaches, sound, changes, pending⟩ := serving.contents
    refine ⟨db, reaches, sound, changes, ?_⟩
    rwa [flatMap_openCalls_set found next stop]

/-- Every move keeps a pool serving, by the cases of a step. -/
theorem step (serving : pool.Serving load calls name connection first runner share)
    (shared : runner.connection = .inMemory name) (positive : runner.maxAttempts ≠ some 0)
    (enough : runner.numThreads * share ≤ calls.length) (move : Move)
    : (pool.step runner move).Serving load calls name connection first runner share := by
  have onCourse := serving.onCourse.step positive trivial move
  have stepped := step_cases runner pool move
  generalize pool.step runner move = next at stepped onCourse ⊢
  cases stepped with
  | idle => exact serving
  | attempted found working within => exact serving.attempt positive enough found working within
  | connected found =>
      obtain ⟨db, reaches, _⟩ := serving.contents
      rw [shared, reaches.connect] at onCourse ⊢
      refine serving.setWorker found ?_ ?_ (fun _ status => ?_) (fun _ status => ?_) onCourse
      · rfl
      · rfl
      · exact (WorkerStatus.working.inj status).symm
      · cases status
  | finished found =>
      refine serving.setWorker found ?_ ?_ (fun _ status => ?_) (fun _ status => ?_) onCourse
      · rfl
      · rfl
      · cases status
      · cases status

/-- The pool of a prepared workload whose requests are open is serving from the start. -/
theorem start {workload : LoadWorkload} {server : Server} {db : Database}
    (prepared : workload.isPrepared = true) (reaches : server.Reaches name connection db)
    (sound : db.Sound) (pending : load.Pending db (workload.items.map (·.call)))
    (runner : ThreadRunner) (numOperations : Nat)
    : Pool.Serving load (workload.items.map (·.call)) name connection db runner
        (runner.opsPerThread numOperations)
        { workload, server, workers := runner.workers numOperations } where
  onCourse := .start _ runner numOperations _ _
  prepared := prepared
  items := rfl
  connected worker member other status := by
    obtain ⟨_, _, rfl⟩ := List.mem_map.mp member
    cases status
  succeeded attempt member := by cases member
  unfailed worker member error status := by
    obtain ⟨_, _, rfl⟩ := List.mem_map.mp member
    cases status
  contents := by
    refine ⟨db, reaches, sound, .refl load db, ?_⟩
    rw [flatMap_openCalls_workers]
    exact pending.sublist (List.take_sublist _ _)

/-- A pool that served all its requests hands over statistics without failures, and its load has
done as many requests as all shares have together.
-/
theorem handed (serving : pool.Serving load calls name connection first runner share)
    {result : Except BenchError ThreadStats} (handed : pool.result? = some result)
    : ∃ stats, result = .ok stats ∧ stats.failures = 0 ∧ stats.done = runner.numThreads * share
        ∧ ∃ db, pool.server.Reaches name connection db ∧ db.Sound
          ∧ load.Changes 0 (runner.numThreads * share) first db := by
  cases result with
  | error error =>
      obtain ⟨before, worker, after, split, status, _⟩ := result?_eq_error handed
      exact absurd status (serving.unfailed worker (by simp [split]) error)
  | ok stats =>
      have finished := (result?_eq_ok handed).2
      have tallies := serving.onCourse.tallies handed
      have completed := serving.onCourse.countP_hasSucceeded finished
      have counter := congrArg List.length serving.onCourse.counter
      rw [List.length_map, ← List.countP_eq_length_filter, completed, List.length_range'] at counter
      obtain ⟨db, reaches, sound, changes, _⟩ := serving.contents
      refine ⟨stats, rfl, ?_, tallies.done.trans completed, db, reaches, sound, counter ▸ changes⟩
      rw [tallies.failures, List.countP_eq_zero]
      intro attempt member failed
      have succeeded := serving.succeeded attempt member
      rw [Attempt.hasSucceeded_of_hasFailed failed] at succeeded
      cases succeeded

end Pool.Serving

end LineageLoad
