import LineageLoad.Proofs.Runner.Replays
import LineageLoad.Proofs.Store.History

/-!
An artifact is the output of one execution at most, if all events come from loads. The store does
not see to that: a load draws the artifacts of its output events without repetition from those that
no stored event produces.
-/

namespace LineageLoad

-----------------------------------------------------------------------------------------
-- One load
-----------------------------------------------------------------------------------------

namespace FillEvents

variable {σ γ : Type} [WordSource γ] {db : Database} {direction : Direction}

/-- Executing items at different indices appends some of their events, and nothing else changes. -/
theorem Makes.serveAll {items : List WorkItem} (makes : Makes db direction items)
    (sound : db.Sound) {indices : List Nat} (apart : indices.Nodup)
    : ∃ chosen : List Event,
        db.serveAll (callsAt (items.map (·.call)) indices)
          = { db with events := db.events ++ chosen }
        ∧ (outputs chosen).Subperm (db.unproduced.filterMap (·.id)) := by
  obtain ⟨events, rfl, acceptable, fresh⟩ := makes
  obtain ⟨chosen, picked⟩ : ∃ chosen, indices.filterMap (events[·]?) = chosen := ⟨_, rfl⟩
  have some : chosen.Subperm events := by
    rw [← picked, ← filterMap_getElem?_filter]
    exact filterMap_getElem?_subperm (apart.filter _) fun index member =>
      of_decide_eq_true (List.mem_filter.mp member).2
  have calls : callsAt ((events.map item).map (·.call)) indices
      = chosen.map fun event => .putEvents [event] := by
    rw [callsAt, ← picked, List.map_filterMap, List.map_map]
    refine List.filterMap_congr fun index _ => ?_
    rw [List.getElem?_map]
    rfl
  have pending : (Load.fillEvents direction).Pending db
      (chosen.map fun event => .putEvents [event]) :=
    pending_of_joins fun event member => acceptable event (some.subset member)
  refine ⟨chosen, ?_, (outputs_subperm some).trans fresh⟩
  rw [calls, pending.serveAll_events sound, List.flatMap_map]
  simp [Call.events]

/-- A preparation succeeds exactly if it is possible, and then holds items for new events. Nothing
is needed for no operations.
-/
theorem prepares {store : Store σ} {before : σ → Prop} (mirrors : store.Mirrors db before)
    (sound : db.Sound) {workload : GeneratedWorkload (Load Sampler) γ}
    (load : workload.generator = .fillEvents direction) {state : σ} (start : before state)
    : workload.Prepares
        (workload.numOperations = 0 ∨ Possible db direction workload.numOperations)
        (Makes db direction) before (workload.prepare store state) := by
  rcases Nat.eq_zero_or_pos workload.numOperations with none | positive
  · unfold GeneratedWorkload.prepare
    rw [if_pos none]
    exact .succeeded (.inl none) rfl ⟨[], rfl, List.forall_mem_nil _, List.nil_subperm⟩ start
  · refine GeneratedWorkload.prepares positive ?_ start
    rw [load]
    exact (inserts_exact mirrors sound direction _).congr
      (or_iff_right (Nat.ne_of_gt positive)).symm

end FillEvents

-----------------------------------------------------------------------------------------
-- Histories of loads
-----------------------------------------------------------------------------------------

namespace Database

variable {db next : Database}

theorem Reachable.serveAll (reachable : db.Reachable) (calls : List Call)
    : (db.serveAll calls).Reachable := by
  obtain ⟨earlier, rfl⟩ := reachable
  exact ⟨earlier ++ calls, List.foldl_append⟩

/-- Only writes of events change the events. -/
theorem Reachable.events_serve (reachable : db.Reachable) {call : Call}
    (other : ∀ events, call ≠ .putEvents events)
    : (serve call db).2.events = db.events := by
  obtain ⟨calls, rfl⟩ := reachable
  have told := empty_toldBy.serveAll empty_sound calls
  have silent (reply : Except StoreError call.Reply) : Answer.events ⟨call, reply⟩ = [] := by
    cases call with
    | putEvents events => exact absurd rfl (other events)
    | _ => rfl
  rw [(told.serve (empty_sound.serveAll calls) call).events, writtenEvents_concat, silent,
    List.append_nil, ← told.events]

/-- Contents whose events all come from loads of events, which run one after another. -/
inductive EventsByLoads : Database → Prop
  /-- A new store. -/
  | empty : EventsByLoads .empty
  /-- Between loads there may be any call that does not write events, accepted or refused. -/
  | served {db : Database} (earlier : EventsByLoads db) (call : Call)
    (other : ∀ events, call ≠ .putEvents events)
    : EventsByLoads (serve call db).2
  /-- A load of events is prepared, which may fail, and some of its items are executed, in any order
  and each at most once.
  -/
  | executed {db : Database} {γ : Type} [WordSource γ] {direction : Direction}
    (earlier : EventsByLoads db) (workload : GeneratedWorkload (Load Sampler) γ)
    (load : workload.generator = .fillEvents direction) (new : workload.isPrepared = false)
    {indices : List Nat} (once : indices.Nodup)
    : EventsByLoads (let prepared := (workload.prepare store db).2
        prepared.1.executeAll store indices prepared.2)
  /-- A load of events is run by a number of threads, whose moves come in any order and may stop at
  any point.
  -/
  | ran {db next : Database} {direction : Direction} {name : String} {state : RunState}
    {config : ThreadEnvConfig} {runner : ThreadRunner} (earlier : EventsByLoads db)
    (holds : state.server.Holds name db)
    (made : ThreadRunner.new? (.inMemory name) config = .ok runner) (workload : LoadWorkload)
    (load : workload.generator = .fillEvents direction) (moves : List Move) (position : Nat)
    (leaves
      : (runner.runMoves moves position workload workload.numOperations state).2.2.server.Holds
          name next)
    : EventsByLoads next

/-- By induction on the calls. -/
theorem EventsByLoads.servedAll (earlier : db.EventsByLoads) {calls : List Call}
    (others : ∀ call ∈ calls, ∀ events, call ≠ .putEvents events)
    : (db.serveAll calls).EventsByLoads := by
  induction calls generalizing db with
  | nil => exact earlier
  | cons call rest ih =>
      obtain ⟨first, others⟩ := List.forall_mem_cons.mp others
      exact ih (earlier.served call first) others

/-- Calls led to the contents, and no artifact belongs to two stored output events. -/
structure OutputsOnce (db : Database) : Prop where
  reachable : db.Reachable
  once : (outputs db.events).Nodup

namespace OutputsOnce

/-- Items at different indices add output events for different artifacts that had none. -/
theorem serveAll (before : db.OutputsOnce) {direction : Direction} {items : List WorkItem}
    (makes : FillEvents.Makes db direction items) {indices : List Nat} (apart : indices.Nodup)
    : (db.serveAll (callsAt (items.map (·.call)) indices)).OutputsOnce where
  reachable := before.reachable.serveAll _
  once := by
    obtain ⟨chosen, executed, fresh⟩ := makes.serveAll before.reachable.sound apart
    obtain ⟨listed, perm, sublist⟩ := fresh
    have nodup := before.reachable.sound.nodup_outputs before.once
    have both : outputs (db.events ++ chosen) = outputs db.events ++ outputs chosen := by
      rw [outputs, List.filter_append, List.map_append]
      rfl
    rw [executed, both, (perm.symm.append_left _).nodup_iff]
    exact nodup.sublist (sublist.append_left _)

theorem serve (before : db.OutputsOnce) {call : Call}
    (other : ∀ events, call ≠ .putEvents events)
    : (serve call db).2.OutputsOnce where
  reachable := before.reachable.serveAll [call]
  once := by
    rw [before.reachable.events_serve other]
    exact before.once

theorem executeAll {γ : Type} [WordSource γ] {direction : Direction} (before : db.OutputsOnce)
    {workload : GeneratedWorkload (Load Sampler) γ}
    (load : workload.generator = .fillEvents direction) (new : workload.isPrepared = false)
    {indices : List Nat} (apart : indices.Nodup)
    : ((workload.prepare store db).2.1.executeAll store indices
        (workload.prepare store db).2.2).OutputsOnce := by
  have prepares := FillEvents.prepares db.mirrors_self before.reachable.sound load rfl
  generalize workload.prepare store db = ended at prepares ⊢
  cases prepares with
  | succeeded _ prepared makes kept =>
      subst kept
      rw [GeneratedWorkload.executeAll_eq prepared]
      exact before.serveAll makes apart
  | refused _ same kept =>
      subst kept
      rw [GeneratedWorkload.executeAll_of_unprepared (same.trans new)]
      exact before

theorem runMoves {direction : Direction} {name : String} {state : RunState}
    {config : ThreadEnvConfig} {runner : ThreadRunner} (before : db.OutputsOnce)
    (holds : state.server.Holds name db)
    (made : ThreadRunner.new? (.inMemory name) config = .ok runner) {workload : LoadWorkload}
    (load : workload.generator = .fillEvents direction) (moves : List Move) (position : Nat)
    : ∃ next,
        (runner.runMoves moves position workload workload.numOperations state).2.2.server.Holds
          name next
        ∧ next.OutputsOnce := by
  obtain ⟨rfl, _, positive⟩ := ThreadRunner.new?_eq_ok made
  let opened := state.server.connect (.inMemory name)
  have sound := before.reachable.sound
  have prepares := FillEvents.prepares (Server.mirrors name opened.1 db) sound load holds.connect
  have started
      : ThreadRunner.start ⟨.inMemory name, config.numThreads, config.maxAttempts⟩ workload
          workload.numOperations state.server = _ :=
    ThreadRunner.start_eq rfl workload.numOperations state.server
  cases outcome : (workload.prepare (Server.store opened.1) opened.2).1.1 with
  | error error =>
      refine ⟨db, ?_, before⟩
      rw [ThreadRunner.runMoves_server_of_refused moves position (by rw [started]; exact outcome),
        started]
      exact prepares.kept.holds
  | ok =>
      have ready := GeneratedWorkload.IsReady.of_prepare holds sound outcome
      obtain ⟨replays, _, apart, _⟩ := ready.run rfl positive moves
      rw [prepares.kept.database_eq] at replays
      refine ⟨_, ?_, before.serveAll (prepares.items_of_ok outcome) apart⟩
      rw [(ThreadRunner.runMoves_of_prepared moves position (by rw [started]; exact outcome)).2.1]
      unfold ThreadRunner.poolAfter
      rw [started]
      exact replays.contents.holds

end OutputsOnce

/-- By induction on the loads and the calls between them. -/
theorem EventsByLoads.outputsOnce (loads : db.EventsByLoads)
    : db.OutputsOnce := by
  induction loads with
  | empty => exact ⟨⟨[], rfl⟩, List.nodup_nil⟩
  | served _ call other before => exact before.serve other
  | executed _ workload load new once before => exact before.executeAll load new once
  | ran _ holds made workload load moves position leaves before =>
      obtain ⟨next, left, after⟩ := before.runMoves holds made load moves position
      rwa [left.unique leaves]

/-- An artifact is the output of one execution at most if all events come from loads: any number of
loads of input and output events that run one after another, with any calls but writes of events
between them. A load may fail to be prepared, and its items are executed by any number of threads in
any order, each at most once or not at all. Output events can then be prepared exactly if there is
an execution, an artifact, and an artifact without an output event for each of them.
-/
theorem EventsByLoads.outputs_once (loads : db.EventsByLoads)
    : (∀ artifact,
          (db.events.filter fun event =>
            event.direction = .output ∧ event.artifact = artifact).length ≤ 1)
        ∧ ∀ {γ : Type} [WordSource γ] (workload : GeneratedWorkload (Load Sampler) γ),
            workload.generator = .fillEvents .output → 0 < workload.numOperations →
              ((workload.prepare store db).1.1 = .ok ()
                ↔ db.nodesOf .execution ≠ [] ∧ db.nodesOf .artifact ≠ []
                  ∧ workload.numOperations ≤ db.unproduced.length) := by
  obtain ⟨reachable, once⟩ := loads.outputsOnce
  refine ⟨fun artifact => ?_, fun workload load positive => ?_⟩
  · rw [← count_outputs]
    exact List.nodup_iff_count_le_one.mp once artifact
  · have prepares := FillEvents.prepares db.mirrors_self reachable.sound load rfl
    rw [prepares.ok_iff, or_iff_right (Nat.ne_of_gt positive)]
    exact and_congr_right fun _ => and_congr_right fun _ => forall_prop_of_true rfl

/-- Two artifacts and an execution. -/
def threeNodes : Database :=
  let node (name : String) (typeId : EntityId) : Node := ⟨none, typeId, "", some name, ∅, ∅⟩
  empty.serveAll
    [.putType .artifact ⟨none, "Dataset", ∅⟩ false, .putType .execution ⟨none, "Trainer", ∅⟩ false,
      .putNodes .artifact [node "first" 1, node "second" 1], .putNodes .execution [node "run" 2]]

/-- A load of output events, whose draws are always the first choice. -/
def produce (numOperations : Nat) : GeneratedWorkload (Load Sampler) (Nat → UInt64) where
  generator := .fillEvents .output
  numOperations
  source := fun _ => 0

/-- The contents after one output event. -/
def producedOnce : Database :=
  let prepared := ((produce 1).prepare store threeNodes).2
  prepared.1.executeAll store [0] prepared.2

/-- After one output event there can be one more, but not two. -/
theorem EventsByLoads.outputs_once_producedOnce
    : producedOnce.EventsByLoads
        ∧ producedOnce.events = [⟨1, 1, .output⟩]
        ∧ (∀ artifact,
          (producedOnce.events.filter fun event =>
            event.direction = .output ∧ event.artifact = artifact).length ≤ 1)
        ∧ ((produce 1).prepare store producedOnce).1.1 = .ok ()
        ∧ ((produce 2).prepare store producedOnce).1.1 ≠ .ok () := by
  have started : threeNodes.EventsByLoads := EventsByLoads.empty.servedAll (by simp)
  have loads : producedOnce.EventsByLoads :=
    started.executed (produce 1) rfl rfl (List.nodup_singleton 0)
  have left : producedOnce.unproduced.length = 1 := by decide +kernel
  obtain ⟨once, prepared⟩ := loads.outputs_once
  refine ⟨loads, by decide +kernel, once, ?_, ?_⟩
  · refine (prepared (produce 1) rfl (by decide)).mpr ⟨?_, ?_, Nat.le_of_eq left.symm⟩
    · exact List.ne_nil_of_length_pos (by decide +kernel)
    · exact List.ne_nil_of_length_pos (by decide +kernel)
  · intro succeeded
    have enough := ((prepared (produce 2) rfl (by decide)).mp succeeded).2.2
    rw [left] at enough
    exact absurd enough (by decide)

end Database

end LineageLoad
