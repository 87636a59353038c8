import LineageLoad.Proofs.Store.Listings
import LineageLoad.Proofs.Workload.Guarantees
import LineageLoad.Proofs.Workload.Requests
import LineageLoad.Workload.FillEvents

/-!
The requests for events are open: both ends of each event were listed, so they are stored. Output
events are for artifacts that have none, each for another one.
-/

namespace LineageLoad

-----------------------------------------------------------------------------------------
-- Artifacts without output events
-----------------------------------------------------------------------------------------

/-- The artifacts of the output events, with repetitions. -/
def outputs (events : List Event) : List EntityId :=
  (events.filter (·.direction = .output)).map (·.artifact)

/-- What some of the events produce, in any order, is some of what all of them produce. -/
theorem outputs_subperm {some events : List Event} (subperm : some.Subperm events)
    : (outputs some).Subperm (outputs events) := by
  obtain ⟨listed, perm, sublist⟩ := subperm
  exact ⟨outputs listed, (perm.filter _).map _, (sublist.filter _).map _⟩

theorem count_outputs (events : List Event) (artifact : EntityId)
    : (outputs events).count artifact
        = (events.filter fun event =>
            event.direction = .output ∧ event.artifact = artifact).length := by
  rw [outputs, List.count, List.countP_map, List.countP_filter, List.countP_eq_length_filter]
  refine congrArg List.length (List.filter_congr fun event _ => ?_)
  rw [Bool.eq_iff_iff]
  simp [and_comm]

/-- The artifacts that no stored output event belongs to. -/
def Database.unproduced (db : Database) : List Node :=
  (db.nodesOf .artifact).filter fun node =>
    ¬∃ event ∈ db.events, event.direction = .output ∧ node.id = some event.artifact

namespace Database

variable {db : Database}

/-- A load finds the artifacts without output events among the events of all artifacts. -/
theorem Sound.withoutOutput_eq (sound : db.Sound)
    : let ids := (db.nodesOf .artifact).filterMap (·.id)
      FillEvents.withoutOutput ids (db.eventsOfArtifacts ids)
        = db.unproduced.filterMap (·.id) := by
  intro ids
  rw [FillEvents.withoutOutput, unproduced, List.filter_filterMap, List.filterMap_filter]
  refine List.filterMap_congr fun node member => ?_
  obtain ⟨id, found⟩ := mem_nodesOf_iff.mp member
  have numbered := (sound.nodes .artifact).numbered id node found
  have listed : id ∈ ids := List.mem_filterMap.mpr ⟨node, member, numbered⟩
  have produced
      : id ∈ outputs (db.eventsOfArtifacts ids)
        ↔ ∃ event ∈ db.events, event.direction = .output ∧ some id = some event.artifact := by
    simp only [outputs, eventsOfArtifacts, List.mem_map, List.mem_filter, List.contains_iff_mem,
      decide_eq_true_eq, Option.some.injEq]
    constructor
    · rintro ⟨event, ⟨⟨stored, _⟩, isOutput⟩, rfl⟩
      exact ⟨event, stored, isOutput, rfl⟩
    · rintro ⟨event, stored, isOutput, rfl⟩
      exact ⟨event, ⟨⟨stored, listed⟩, isOutput⟩, rfl⟩
  rw [numbered, Option.filter_some]
  refine ite_congr (propext ?_) (fun _ => rfl) fun _ => rfl
  rw [Bool.not_eq_true', ← Bool.not_eq_true, List.contains_iff_mem, decide_eq_true_iff]
  exact not_congr produced

/-- Output events of different artifacts that have none keep the artifacts of all output events
different.
-/
theorem Sound.nodup_outputs (sound : db.Sound) (once : (outputs db.events).Nodup)
    : (outputs db.events ++ db.unproduced.filterMap (·.id)).Nodup := by
  refine List.nodup_append.mpr ⟨once, ?_, ?_⟩
  · exact sound.nodup_ids.sublist (List.filter_sublist.filterMap _)
  · rintro _ produced id free rfl
    obtain ⟨event, member, rfl⟩ := List.mem_map.mp produced
    obtain ⟨node, listed, numbered⟩ := List.mem_filterMap.mp free
    obtain ⟨stored, isOutput⟩ := List.mem_filter.mp member
    have unproduced := of_decide_eq_true (List.mem_filter.mp listed).2
    exact unproduced ⟨event, stored, of_decide_eq_true isOutput, numbered⟩

end Database

-----------------------------------------------------------------------------------------
-- Synthesized events
-----------------------------------------------------------------------------------------

namespace FillEvents

variable {σ γ : Type} [WordSource γ] {db : Database} {artifacts executions : List EntityId}
  {direction : Direction} {count : Nat}

/-- Items for as many events of a direction between given nodes. Output events take their artifacts
from the given ones without repetition.
-/
def Drawn (direction : Direction) (artifacts executions : List EntityId) (count : Nat)
    (items : List WorkItem) : Prop :=
  ∃ events : List Event, items = events.map item ∧ events.length = count
    ∧ (∀ event ∈ events, event.direction = direction
        ∧ event.artifact ∈ artifacts ∧ event.execution ∈ executions)
    ∧ (direction = .output → (events.map (·.artifact)).Subperm artifacts)

theorem Drawn.nil
    : Drawn direction artifacts executions 0 [] :=
  ⟨[], rfl, rfl, List.forall_mem_nil _, fun _ => List.nil_subperm⟩

/-- By induction on the number of items. -/
theorem inputItems_gives (someArtifact : artifacts ≠ []) (someExecution : executions ≠ [])
    (count : Nat)
    : Gives (inputItems artifacts executions count : DrawM γ _)
        (Drawn .input artifacts executions count) := by
  induction count with
  | zero => exact .pure .nil
  | succ count ih =>
      refine .bind (.choose someArtifact) fun artifact used => ?_
      refine .bind (.choose someExecution) fun execution ran => ?_
      refine .bind ih fun rest drawn => .pure ?_
      obtain ⟨events, rfl, length, between, _⟩ := drawn
      exact ⟨⟨artifact, execution, .input⟩ :: events, rfl, congrArg Nat.succ length,
        List.forall_mem_cons.mpr ⟨⟨rfl, used, ran⟩, between⟩, fun isOutput => nomatch isOutput⟩

/-- By induction on the number of items: each takes its artifact away from the others. -/
theorem outputItems_gives (someExecution : executions ≠ []) (enough : count ≤ artifacts.length)
    : Gives (outputItems executions count artifacts : DrawM γ _)
        (Drawn .output artifacts executions count) := by
  induction count generalizing artifacts with
  | zero => exact .pure .nil
  | succ count ih =>
      have someArtifact : artifacts ≠ [] := List.length_pos_iff.mp (by omega)
      refine .bind (.chooseAndRemove someArtifact) fun (artifact, others) perm => ?_
      have left : others.length + 1 = artifacts.length := perm.length_eq
      refine .bind (.choose someExecution) fun execution ran => ?_
      refine .bind (ih (by omega)) fun rest drawn => .pure ?_
      obtain ⟨events, rfl, length, between, once⟩ := drawn
      refine ⟨⟨artifact, execution, .output⟩ :: events, rfl, congrArg Nat.succ length,
        List.forall_mem_cons.mpr ⟨⟨rfl, perm.subset List.mem_cons_self, ran⟩, ?_⟩, fun _ => ?_⟩
      · intro event member
        obtain ⟨isOutput, free, ran⟩ := between event member
        exact ⟨isOutput, perm.subset (List.mem_cons_of_mem _ free), ran⟩
      · exact ((List.subperm_cons artifact).mpr (once rfl)).trans perm.subperm

/-- The items of a load are for events between stored nodes, and the artifacts of output events are
different ones without a stored output event.
-/
def Makes (db : Database) (direction : Direction) (items : List WorkItem) : Prop :=
  ∃ events : List Event, items = events.map item
    ∧ (∀ event ∈ events, db.Joins event ∧ event.direction = direction)
    ∧ (outputs events).Subperm (db.unproduced.filterMap (·.id))

theorem outputs_of_input {events : List Event}
    (input : ∀ event ∈ events, event.direction = .input)
    : outputs events = [] := by
  rw [outputs, List.filter_eq_nil_iff.mpr fun event member => ?_, List.map_nil]
  rw [input event member]
  exact Bool.false_ne_true

theorem outputs_of_output {events : List Event}
    (output : ∀ event ∈ events, event.direction = .output)
    : outputs events = events.map (·.artifact) := by
  rw [outputs, List.filter_eq_self.mpr fun event member => decide_eq_true (output event member)]

/-- What a load of events needs: both kinds of nodes, and for output events an artifact without one
for each.
-/
def Possible (db : Database) (direction : Direction) (count : Nat) : Prop :=
  db.nodesOf .execution ≠ [] ∧ db.nodesOf .artifact ≠ []
    ∧ (direction = .output → count ≤ db.unproduced.length)

theorem inserts_exact {store : Store σ} {before : σ → Prop} (mirrors : store.Mirrors db before)
    (sound : db.Sound) (direction : Direction) (count : Nat)
    : SucceedsIff (Possible db direction count) (Preparation.On before)
        (inserts direction store count : PrepareM σ γ _)
        fun items p => (items.length = count ∧ Makes db direction items) ∧ p.On before := by
  unfold inserts
  refine Answers.succeedsIff (mirrors.existingNodes _).onStore ?_
  refine Answers.succeedsIff (mirrors.existingNodes _).onStore ?_
  refine SucceedsIff.check rfl (fun absent possible => ?_) fun present => ?_
  · rw [Bool.or_eq_true, List.isEmpty_iff, List.isEmpty_iff, sound.ids_eq_nil_iff,
      sound.ids_eq_nil_iff] at absent
    exact absent.elim possible.2.1 possible.1
  rw [Bool.or_eq_true, List.isEmpty_iff, List.isEmpty_iff, not_or] at present
  obtain ⟨someArtifact, someExecution⟩ := present
  have nodes : db.nodesOf .execution ≠ [] ∧ db.nodesOf .artifact ≠ [] :=
    ⟨mt sound.ids_eq_nil_iff.mpr someExecution, mt sound.ids_eq_nil_iff.mpr someArtifact⟩
  have joins {event : Event} (artifact : event.artifact ∈ (db.nodesOf .artifact).filterMap (·.id))
      (execution : event.execution ∈ (db.nodesOf .execution).filterMap (·.id))
      : db.Joins event :=
    ⟨sound.mem_ids_iff.mp artifact, sound.mem_ids_iff.mp execution⟩
  cases direction with
  | input =>
      have gives := inputItems_gives (γ := γ) someArtifact someExecution count
      refine (gives.onSource.weaken fun items p ⟨drawn, kept⟩ => ?_).succeedsIff
        ⟨nodes.1, nodes.2, fun isOutput => nomatch isOutput⟩
      obtain ⟨events, rfl, length, between, _⟩ := drawn
      refine ⟨⟨(List.length_map _).trans length, events, rfl, fun event member => ?_, ?_⟩, kept⟩
      · obtain ⟨input, used, ran⟩ := between event member
        exact ⟨joins used ran, input⟩
      · rw [outputs_of_input fun event member => (between event member).1]
        exact List.nil_subperm
  | output =>
      refine Answers.succeedsIff (mirrors.request rfl).onStore ?_
      have counted : (db.unproduced.filterMap (·.id)).length = db.unproduced.length :=
        sound.length_ids (List.filter_subset_self _)
      dsimp only
      rw [sound.withoutOutput_eq, counted]
      refine SucceedsIff.check rfl (fun tooFew possible => ?_) fun enough => ?_
      · exact absurd (possible.2.2 rfl) (Nat.not_le.mpr tooFew)
      have enough := Nat.le_of_not_lt enough
      have gives := outputItems_gives (γ := γ) someExecution (counted.symm ▸ enough)
      refine (gives.onSource.weaken fun items p ⟨drawn, kept⟩ => ?_).succeedsIff
        ⟨nodes.1, nodes.2, fun _ => enough⟩
      obtain ⟨events, rfl, length, between, once⟩ := drawn
      refine ⟨⟨(List.length_map _).trans length, events, rfl, fun event member => ?_, ?_⟩, kept⟩
      · obtain ⟨output, free, ran⟩ := between event member
        exact ⟨joins ((List.filter_sublist.filterMap _).subset free) ran, output⟩
      · rw [outputs_of_output fun event member => (between event member).1]
        exact once rfl

/-- Events between stored nodes can be written one at a time, and none keeps another out. -/
theorem pending_of_joins {events : List Event}
    (acceptable : ∀ event ∈ events, db.Joins event ∧ event.direction = direction)
    : (Load.fillEvents direction).Pending db (events.map fun event => .putEvents [event]) := by
  refine .of_free fun call member => ?_
  obtain ⟨event, listed, rfl⟩ := List.mem_map.mp member
  obtain ⟨joins, same⟩ := acceptable event listed
  exact ⟨.newEvent joins same, rfl⟩

theorem inserts_pending {name : String} {connection : Connection} (sound : db.Sound)
    (direction : Direction) (count : Nat)
    : Ensures (Preparation.Reaches · name connection db)
        (inserts direction (Server.store connection) count : PrepareM Server γ _)
        fun items p => (Load.fillEvents direction).Pending db (items.map (·.call))
          ∧ p.Reaches name connection db := by
  have exact := inserts_exact (γ := γ) (Server.mirrors name connection db) sound direction count
  refine exact.ensures.weaken fun items p ⟨⟨_, makes⟩, reaches⟩ => ⟨?_, reaches⟩
  obtain ⟨events, rfl, acceptable, _⟩ := makes
  rw [List.map_map]
  exact pending_of_joins acceptable

end FillEvents
end LineageLoad
