import LineageLoad.Proofs.Workload.HeldItems
import LineageLoad.Proofs.Workload.SafeLoads
import LineageLoad.Proofs.Workload.Seeding

/-!
Histories of contents that are seeded and worked on in turns. Seeded rows never collide with what is
there, whatever was prepared and executed in between, in whichever order, and whatever has failed.
-/

namespace LineageLoad

-----------------------------------------------------------------------------------------
-- Preparations
-----------------------------------------------------------------------------------------

/-- Sound contents that follow on others and use no greater numbers than those may. -/
structure Database.Within (base db : Database) : Prop where
  sound : db.Sound
  below : db.SeedsBelow base
  counts : base.CountsLe db

section

variable {base db next : Database} {call : Call} {fails : List Answer → Call → Option StoreError}

theorem Database.Within.continues (within : base.Within db)
    : base.Continues db :=
  ⟨⟨within.sound, within.below.mono within.counts⟩, within.counts⟩

theorem Database.Seedable.within (seedable : db.Seedable)
    : db.Within db :=
  ⟨seedable.sound, seedable.below, .refl db⟩

theorem Database.Attempts.within {reply : Except StoreError call.Reply}
    (attempts : db.Attempts call reply next) (within : base.Within db)
    (handsIn : call.SeedsBelow base)
    : base.Within next := by
  cases attempts with
  | refused => exact within
  | served served =>
      have below := within.below.serve within.sound handsIn
      have counts := within.counts.trans (Database.countsLe_serve db call)
      have sound := within.sound.serve call
      rw [served] at below counts sound
      exact ⟨sound, below, counts⟩

theorem Call.seedsBelow_of_read (reading : call.isWrite = false) (limit : Database)
    : call.SeedsBelow limit := by
  cases call with
  | putType => cases reading
  | putNodes => cases reading
  | _ => trivial

theorem Call.seedsBelow_newType {kind : Kind} {type : EntityType} {number : Nat}
    (named : type.name = numbered "type_" number) (canAddFields : Bool) (limit : Database)
    : (Call.putType kind type canAddFields).SeedsBelow limit :=
  fun _ seeded => absurd (seeded.symm.trans named) (kind.typeSeed_ne_numbered _ _)

theorem Call.seedsBelow_newNode {kind : Kind} {node : Node} {number : Nat}
    (named : node.name = some (numbered "node_" number)) (limit : Database)
    : (Call.putNodes kind [node]).SeedsBelow limit :=
  List.forall_mem_singleton.mpr fun _ seeded =>
    absurd (Option.some.inj (seeded.symm.trans named)) (kind.nodeSeed_ne_numbered _ _)

/-- No call that a preparation makes names a seeded row. -/
theorem Call.Preparing.seedsBelow (preparing : call.Preparing) (limit : Database)
    : call.SeedsBelow limit := by
  cases preparing with
  | read reading => exact Call.seedsBelow_of_read reading limit
  | type named => exact Call.seedsBelow_newType named false limit
  | node named => exact Call.seedsBelow_newNode named limit

/-- Items of a load name seeded rows only if these were listed. -/
theorem Store.Issues.seedsBelow {load : Load Sampler}
    (issues
      : (Database.store.withFailures fails).Issues (fun trial => base.Within trial.1) load call)
    : call.SeedsBelow base := by
  cases issues with
  | newType named => exact Call.seedsBelow_newType named false base
  | @typeVersion kind _ type trial types within listed named =>
      intro number seeded
      cases Database.serve_of_withFailures listed
      obtain ⟨old, member, same⟩ := List.mem_map.mp named
      exact within.below.types kind number old member (same.trans seeded)
  | newNode named => exact Call.seedsBelow_newNode named base
  | @nodeVersion kind _ _ node trial nodes within listed named =>
      refine List.forall_mem_singleton.mpr fun number seeded => ?_
      cases Database.serve_of_withFailures listed
      obtain ⟨old, member, same⟩ := List.mem_map.mp named
      exact within.below.nodes kind number old member (same.trans seeded)
  | @link link => cases link <;> trivial
  | event => trivial
  | read _ reading => exact Call.seedsBelow_of_read reading base

end

section

variable {σ γ : Type} [WordSource γ] {store : Store σ} {holds : σ → Prop} {fits : Call → Prop}
  {workload : GeneratedWorkload (Load Sampler) γ}

/-- What is true of the items of a load stays true of what a workload holds, and its store keeps
what it upholds, whether a preparation succeeds or not.
-/
theorem GeneratedWorkload.prepare_upholds (upholds : store.Upholds holds) {state : σ}
    (start : holds state) (held : ∀ item ∈ workload.items, fits item.call)
    (issued : ∀ call, store.Issues holds workload.generator call → fits call)
    : let ended := workload.prepare store state
      holds ended.2.2 ∧ ∀ item ∈ ended.2.1.items, fits item.call := by
  have safe : Safe (Preparation.Good holds (fun _ => True) workload.numOperations)
      (workload.generator.generate store workload.numOperations : PrepareM σ γ _)
      (store.Synthesizes holds workload.generator workload.numOperations) :=
    Load.generate_safe upholds workload.generator workload.numOperations
  have good : Preparation.Good holds (fun _ => True) workload.numOperations
      (⟨state, workload.source, []⟩ : Preparation σ γ) :=
    ⟨start, trivial, List.forall_mem_nil _⟩
  obtain ⟨_, made, kept⟩ := safe.ends good
  constructor
  · rcases workload.prepare_store store state with same | same
    · rw [same]
      exact start
    · rw [same]
      exact kept.store
  · have prepared := workload.prepare_prepared store state
    generalize (workload.prepare store state).1.1 = outcome,
      (workload.prepare store state).2.1 = next at prepared ⊢
    cases prepared with
    | failed => exact held
    | succeeded provides =>
        cases provides with
        | idle => exact List.forall_mem_nil _
        | synthesized _ run =>
            intro item member
            exact issued item.call ((made _ run).issues item member)

end

-----------------------------------------------------------------------------------------
-- Histories
-----------------------------------------------------------------------------------------

namespace Seeding

/-- Contents, and the workloads that are prepared on them. -/
structure World (γ : Type) where
  contents : Database := .empty
  workloads : List (GeneratedWorkload (Load Sampler) γ) := []

/-- What can happen to a world. Workloads are named by the order of their creation, and items are
executed one at a time, of any workload and in any order.
-/
inductive Step (γ : Type) where
  | seedTypes (counts : PerKind Nat)
  | seedNodes (counts : PerKind Nat)
  | create (load : Load Sampler) (numOperations : Nat) (source : γ)
  | prepare (workload : Nat)
  | execute (workload item : Nat)
  | teardown (workload : Nat)

/-- The failures that a store is made to have during a step. -/
abbrev Failures := List Answer → Call → Option StoreError

variable {γ : Type} {world : World γ}

/-- What becomes of a world in which something is done with a workload, if there is such a one. -/
def World.withWorkload (world : World γ) (index : Nat)
    (act : GeneratedWorkload (Load Sampler) γ → World γ) : World γ :=
  match world.workloads[index]? with
  | none => world
  | some workload => act workload

/-- A world after a step; whichever calls (fails) refuses do not reach the contents. -/
def World.step [WordSource γ] (world : World γ) (fails : Failures) (step : Step γ) : World γ :=
  let store := Database.store.withFailures fails
  let start : Trial := (world.contents, [])
  match step with
  | .seedTypes counts => { world with contents := ((store.seedTypes counts).run start).2.1 }
  | .seedNodes counts => { world with contents := ((store.seedNodes counts).run start).2.1 }
  | .create load numOperations source =>
    { world with workloads := world.workloads ++ [{ generator := load, numOperations, source }] }
  | .prepare index =>
    world.withWorkload index fun workload =>
      let ended := workload.prepare store start
      { contents := ended.2.2.1, workloads := world.workloads.set index ended.2.1 }
  | .execute index item =>
    world.withWorkload index fun workload =>
      { world with contents := (workload.execute item store start).2.1 }
  | .teardown index =>
    world.withWorkload index fun workload =>
      { world with workloads := world.workloads.set index workload.teardown }

/-- A world after some steps. -/
def World.after [WordSource γ] (steps : List (Failures × Step γ)) : World γ :=
  steps.foldl (fun world step => world.step step.1 step.2) {}

/-- In a good world rows can be seeded, and what is still to be executed uses no greater numbers. -/
structure World.Good (world : World γ) : Prop where
  seedable : world.contents.Seedable
  held
    : ∀ workload ∈ world.workloads, ∀ item ∈ workload.items,
        item.call.SeedsBelow world.contents

/-- Workloads may keep what they hold, whatever the contents become that follow on. -/
theorem World.Good.continues (good : world.Good) {next : Database}
    (continues : world.contents.Continues next)
    : World.Good { world with contents := next } where
  seedable := continues.seedable
  held workload member item listed := (good.held workload member item listed).mono continues.counts

/-- A workload may hold other items. -/
theorem World.Good.set (good : world.Good) (index : Nat)
    {workload : GeneratedWorkload (Load Sampler) γ}
    (held : ∀ item ∈ workload.items, item.call.SeedsBelow world.contents)
    : World.Good { world with workloads := world.workloads.set index workload } where
  seedable := good.seedable
  held other member := by
    rcases List.mem_or_eq_of_mem_set member with old | rfl
    · exact good.held other old
    · exact held

theorem World.Good.withWorkload (good : world.Good) {index : Nat}
    {act : GeneratedWorkload (Load Sampler) γ → World γ}
    (acts
      : ∀ workload, (∀ item ∈ workload.items, item.call.SeedsBelow world.contents) →
          (act workload).Good)
    : (world.withWorkload index act).Good := by
  unfold World.withWorkload
  split
  · exact good
  · next workload found => exact acts workload (good.held workload (List.mem_of_getElem? found))

variable {fails : Failures}

/-- Executing an item goes on well, whether it is held, refused or served. -/
theorem continues_execute {db : Database} (seedable : db.Seedable)
    {workload : GeneratedWorkload (Load Sampler) γ}
    (held : ∀ item ∈ workload.items, item.call.SeedsBelow db) (index : Nat)
    : db.Continues
        (workload.execute index (Database.store.withFailures fails) (db, [])).2.1 := by
  unfold GeneratedWorkload.execute
  split
  · exact seedable.continues rfl
  · split
    · exact seedable.continues rfl
    · next item found =>
        obtain ⟨reply, next, answered, attempts⟩ :=
          Database.serve_withFailures fails item.call db []
        change db.Continues ((Database.store.withFailures fails).serve item.call (db, [])).2.1
        rw [answered]
        have handsIn := held item (List.mem_of_getElem? found)
        exact (attempts.within seedable.within handsIn).continues

variable [WordSource γ]

/-- Every step keeps a world good, by what can happen. -/
theorem World.Good.step (good : world.Good) (fails : Failures) (step : Step γ)
    : (world.step fails step).Good := by
  cases step with
  | seedTypes counts =>
      have leads := Store.seedTypes_leads (Database.serves_withFailures fails) good.seedable counts
        Kind.nodup_all
      exact good.continues
        (leads.left (fun _ _ seeds => seeds.continues) (fun _ stopped => stopped.2) rfl)
  | seedNodes counts =>
      have leads := Store.seedNodes_leads (Database.serves_withFailures fails) good.seedable counts
        Kind.nodup_all
      exact good.continues
        (leads.left (fun _ _ seeds => seeds.continues) (fun _ stopped => stopped.2) rfl)
  | create load numOperations source =>
      refine ⟨good.seedable, List.forall_mem_append.mpr ⟨good.held, ?_⟩⟩
      exact List.forall_mem_singleton.mpr (List.forall_mem_nil _)
  | prepare index =>
      refine good.withWorkload fun workload held => ?_
      have upholds : (Database.store.withFailures fails).Upholds
          fun trial => world.contents.Within trial.1 :=
        Database.upholds_withFailures fails Database.Within.sound
          fun preparing within attempts =>
            attempts.within within (preparing.seedsBelow world.contents)
      have start : world.contents.Within (world.contents, ([] : List Answer)).1 :=
        good.seedable.within
      obtain ⟨within, items⟩ := workload.prepare_upholds upholds start held
        fun call issues => issues.seedsBelow
      exact (good.set index items).continues within.continues
  | execute index item =>
      refine good.withWorkload fun workload held => ?_
      exact good.continues (continues_execute good.seedable held item)
  | teardown index =>
      exact good.withWorkload fun workload _ => good.set index (List.forall_mem_nil _)

/-- By induction on the steps, from the last one. -/
theorem World.after_good (steps : List (Failures × Step γ))
    : (World.after steps).Good := by
  induction steps using List.reverseRecOn with
  | nil => exact ⟨Database.empty_seedable, List.forall_mem_nil _⟩
  | append_singleton steps last ih =>
      rw [World.after, List.foldl_append]
      exact ih.step last.1 last.2

/-- What seeding does on contents that any steps lead to: any seedings, preparations and executions
of any loads, each of which may fail at any call, with the executions in any order. Seeding types
succeeds and adds exactly as many types of each kind as are asked for. Seeding nodes does the same
if no kind lacks a type that nodes are asked for. Otherwise it fails at the first kind that lacks
one, for want of this precondition, when exactly the kinds before that one have been filled. What
was there stays as it is: new rows are listed after it, and nothing else changes.
-/
theorem World.after_seeds (steps : List (Failures × Step γ)) (counts : PerKind Nat)
    : let db := (World.after steps).contents
      (∃ next, (Database.store.seedTypes counts).run db = (.ok (), next)
        ∧ (∀ kind, ∃ new, next.typesOf kind = db.typesOf kind ++ new
            ∧ new.length = counts.get kind)
        ∧ next = { db with types := next.types, lastTypeId := next.lastTypeId })
      ∧ ((∀ kind, ¬db.LacksType counts kind) →
          ∃ next, (Database.store.seedNodes counts).run db = (.ok (), next)
            ∧ (∀ kind, ∃ new, next.nodesOf kind = db.nodesOf kind ++ new
                ∧ new.length = counts.get kind)
            ∧ next = { db with nodes := next.nodes })
      ∧ ∀ filled kind rest, Kind.all = filled ++ kind :: rest →
          (∀ other ∈ filled, ¬db.LacksType counts other) → db.LacksType counts kind →
          ∃ error next, (Database.store.seedNodes counts).run db = (.error error, next)
            ∧ error = .noTypeToInsertWith kind
            ∧ error.category = .failedPrecondition
            ∧ (∀ other ∈ filled, ∃ new, next.nodesOf other = db.nodesOf other ++ new
                ∧ new.length = counts.get other)
            ∧ (∀ other ∉ filled, next.nodesOf other = db.nodesOf other)
            ∧ next = { db with nodes := next.nodes } := by
  intro db
  have seedable : db.Seedable := (World.after_good steps).seedable
  refine ⟨?_, fun present => ?_, fun filled kind rest all present lacks => ?_⟩
  · obtain ⟨next, run, seeds⟩ := seedable.run_seedTypes counts
    exact ⟨next, run, fun kind => seeds.rows.exists_new kind.mem_all, seeds.frame⟩
  · obtain ⟨next, run, seeds⟩ :=
      seedable.run_seedNodesFor Kind.nodup_all fun kind _ => present kind
    exact ⟨next, run, fun kind => seeds.rows.exists_new kind.mem_all, seeds.frame⟩
  · obtain ⟨next, run, seeds⟩ := seedable.run_seedNodes_lacking all present lacks
    refine ⟨_, next, run, rfl, rfl, ?_, seeds.rows.others, seeds.frame⟩
    exact fun other member => seeds.rows.exists_new member

end Seeding

end LineageLoad
