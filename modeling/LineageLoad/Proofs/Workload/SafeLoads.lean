import LineageLoad.Proofs.Workload.SafeFills

/-!
No load ever chooses from nothing while it synthesizes its requests, on any contents that calls lead
to, whatever is refused, whichever ids are hidden and whatever words are drawn.
-/

namespace LineageLoad

variable {σ γ : Type} {holds : σ → Prop} {limit : Nat} {store : Store σ} {kind : Kind}

-----------------------------------------------------------------------------------------
-- Loads that read
-----------------------------------------------------------------------------------------

/-- A type without an id stops reads by id. -/
theorem ReadTypes.item_safe (read : TypeRead) (allBytes : Nat) (type : EntityType)
    : Safe (fun _ => True) (liftM (item kind read allBytes type) : DrawM γ WorkItem)
        fun item => item.call.isWrite = false := by
  unfold item
  split
  · exact .pure rfl
  · split
    · exact .pure rfl
    · exact .throw nofun
  · exact .pure rfl

variable [WordSource γ]

namespace ReadTypes

/-- By induction on the number of items. -/
theorem items_safe {types : List EntityType} (someType : types ≠ []) (read : TypeRead)
    (allBytes count : Nat)
    : Safe (fun _ => True) (items kind read allBytes types count : DrawM γ _)
        (store.Synthesizes holds (.readTypes kind read) count) := by
  induction count with
  | zero => exact .pure .nil
  | succ count ih =>
      refine .bind (Gives.choose someType).safe fun type _ => ?_
      refine .bind (item_safe read allBytes type) fun first reading => ?_
      exact .bind ih fun rest others => .pure (.cons (.read rfl reading) others)

theorem reads_safe (upholds : store.Upholds holds) (read : TypeRead) (count : Nat)
    : Safe (Preparation.Good holds (fun _ => True) limit)
        (reads kind read store count : PrepareM σ γ _)
        (store.Synthesizes holds (.readTypes kind read) count) := by
  refine .bind (upholds.types_safe kind) fun types _ => ?_
  refine .check nofun fun someType => ?_
  exact (items_safe (mt List.isEmpty_iff.mpr someType) read _ count).onSource

end ReadTypes

namespace ReadNodes

/-- A node is picked only from a list that has one. -/
theorem pick_safe (kind : Kind) (nodes : List Node)
    : Safe (fun _ => True) (pick kind nodes : DrawM γ Node) fun _ => True := by
  refine .branch (fun _ => .throw nofun) fun someNode => ?_
  exact (Gives.choose (mt List.isEmpty_iff.mpr someNode)).safe.weaken fun _ _ => trivial

/-- By induction on the number of items. A node without an id stops them. -/
theorem itemsById_safe (nodes : List Node) (count : Nat)
    : Safe (fun _ => True) (itemsById kind nodes count : DrawM γ _)
        (store.Synthesizes holds (.readNodes kind .byId) count) := by
  induction count with
  | zero => exact .pure .nil
  | succ count ih =>
      refine .bind (pick_safe kind nodes) fun node _ => ?_
      split
      · exact .bind ih fun rest others => .pure (.cons (.read rfl rfl) others)
      · exact .throw nofun

/-- By induction on the number of items. -/
theorem itemsByType_safe (nodes : List Node) {types : List EntityType} (someType : types ≠ [])
    (count : Nat)
    : Safe (fun _ => True) (itemsByType kind nodes types count : DrawM γ _)
        (store.Synthesizes holds (.readNodes kind .byType) count) := by
  induction count with
  | zero => exact .pure .nil
  | succ count ih =>
      refine .bind (Gives.choose someType).safe fun type _ => ?_
      exact .bind ih fun rest others => .pure (.cons (.read rfl rfl) others)

/-- By induction on the number of items. -/
theorem itemsByName_safe (named : List Node) (count : Nat)
    : Safe (fun _ => True) (itemsByName kind named count : DrawM γ _)
        (store.Synthesizes holds (.readNodes kind .byTypeAndName) count) := by
  induction count with
  | zero => exact .pure .nil
  | succ count ih =>
      refine .bind (pick_safe kind named) fun node _ => ?_
      exact .bind ih fun rest others => .pure (.cons (.read rfl rfl) others)

theorem reads_safe (upholds : store.Upholds holds) (read : NodeRead) (count : Nat)
    : Safe (Preparation.Good holds (fun _ => True) limit)
        (reads kind read store count : PrepareM σ γ _)
        (store.Synthesizes holds (.readNodes kind read) count) := by
  refine .bind (upholds.nodes_safe kind) fun nodes _ => ?_
  cases read with
  | byId => exact (itemsById_safe nodes count).onSource
  | byType =>
      refine .bind (upholds.types_safe kind) fun types _ => ?_
      refine .check nofun fun someType => ?_
      exact (itemsByType_safe nodes (mt List.isEmpty_iff.mpr someType) count).onSource
  | byTypeAndName => exact (itemsByName_safe _ count).onSource

end ReadNodes

namespace ReadLinked

variable {load : Load Sampler} {call : EntityId → Call}

/-- By induction on the number of items. -/
theorem items_safe (upholds : store.Upholds holds) (loads : load.isReading = true)
    (reading : ∀ id, (call id).isWrite = false) {ids : List EntityId} (someId : ids ≠ [])
    (count : Nat) (sizes : List (EntityId × Nat))
    : Safe (Preparation.Good holds (fun _ => True) limit)
        (items store call ids count sizes : PrepareM σ γ _)
        (store.Synthesizes holds load count) := by
  induction count generalizing sizes with
  | zero => exact .pure .nil
  | succ count ih =>
      refine .bind (Gives.choose someId).safe.onSource fun id _ => ?_
      -- The other items follow in the same way on a known size and on one that is asked for.
      have goesOn (bytes : Nat) : Safe (Preparation.Good holds (fun _ => True) limit)
          (do
            let rest ← items store call ids count ((id, bytes) :: sizes)
            return ⟨call id, bytes⟩ :: rest : PrepareM σ γ _)
          (store.Synthesizes holds load (count + 1)) :=
        .bind (ih _) fun rest others => .pure (.cons (.read loads (reading id)) others)
      have measured : Safe holds (measure store (call id)) fun _ => True :=
        .bind (upholds.request_safe (reading id)) fun _ _ => .pure trivial
      split
      · exact goesOn _
      · exact .bind measured.onStore fun bytes _ => goesOn bytes

theorem reads_safe (upholds : store.Upholds holds) (loads : load.isReading = true)
    (reading : ∀ id, (call id).isWrite = false) {nothing : BenchError}
    (reason : nothing.category ≠ .defect) (count : Nat)
    : Safe (Preparation.Good holds (fun _ => True) limit)
        (reads kind nothing call store count : PrepareM σ γ _)
        (store.Synthesizes holds load count) := by
  refine .bind (upholds.nodes_safe kind) fun nodes _ => ?_
  refine .check reason fun someId => ?_
  exact items_safe upholds loads reading (mt List.isEmpty_iff.mpr someId) count []

end ReadLinked

-----------------------------------------------------------------------------------------
-- Any load
-----------------------------------------------------------------------------------------

/-- No load has a defect, by the kinds of load. -/
theorem Load.generate_safe (upholds : store.Upholds holds) (load : Load Sampler) (count : Nat)
    : Safe (Preparation.Good holds (fun _ => True) count)
        (load.generate store count : PrepareM σ γ _) (store.Synthesizes holds load count) := by
  cases load with
  | fillTypes kind update numProperties =>
      cases update with
      | false => exact FillTypes.inserts_safe upholds count
      | true => exact FillTypes.updates_safe upholds count
  | fillNodes kind update numProperties stringBytes =>
      cases update with
      | false => exact FillNodes.inserts_safe upholds count
      | true => exact FillNodes.updates_safe upholds count
  | fillLinks link => exact FillLinks.inserts_safe upholds link count
  | fillEvents direction => exact FillEvents.inserts_safe upholds direction count
  | readTypes kind read => exact ReadTypes.reads_safe upholds read count
  | readNodes kind read => exact ReadNodes.reads_safe upholds read count
  | readLinked read =>
      refine ReadLinked.reads_safe upholds rfl (ReadLinked.isWrite_linkCall read) ?_ count
      exact nofun
  | readEvents read =>
      refine ReadLinked.reads_safe upholds rfl (ReadLinked.isWrite_eventCall read) ?_ count
      exact nofun

/-- What a load does that synthesizes its requests on contents that any calls have led to, while any
of its calls are refused and any ids of listed types and nodes are hidden. It ends with as many
items as operations or with an error, which is never for a step without an answer, such as a choice
from nothing. Where rows are missing for updates, their number is a proper difference. A load of
output events or of links fails before anything is drawn, or its loop goes on from every unfinished
state, since there is something to choose.
-/
theorem Load.generate_withoutDefects (load : Load Sampler) (count : Nat) (calls : List Call)
    (fails : List Answer → Call → Option StoreError) (hides : Trial → Call → Nat → Bool)
    (source : γ)
    : let store := (Database.store.withFailures fails).withHiddenIds hides
      let start : Preparation Trial γ := ⟨(Database.empty.serveAll calls, []), source, []⟩
      let ended := (load.generate store count : PrepareM Trial γ (List WorkItem)).run start
      let stopped := (∃ error, ended.1 = .error error) ∧ ended.2.source = source
      (∀ error, ended.1 = .error error → error.category ≠ .defect)
        ∧ (∀ items, ended.1 = .ok items → items.length = count)
        ∧ (∀ note ∈ ended.2.notes, note.Within count)
        ∧ (load = .fillEvents .output →
            stopped ∨ ∃ artifacts executions,
              FillEvents.Runs artifacts executions count source (ended.1, ended.2.source))
        ∧ ∀ link, load = .fillLinks link →
            stopped ∨ ∃ nodes contexts known,
              FillLinks.Runs link nodes contexts known count source
                (ended.1, ended.2.source) := by
  intro store start ended stopped
  have sound : (Database.store.withFailures fails).Upholds fun trial => trial.1.Sound :=
    Database.upholds_withFailures fails id fun _ held attempts => held.attempts attempts
  have upholds := sound.withHiddenIds hides
  have good {drawn : γ → Prop} (given : drawn source)
      : start.Good (fun trial => trial.1.Sound) drawn count :=
    ⟨Database.empty_sound.serveAll calls, given, List.forall_mem_nil _⟩
  obtain ⟨reasons, made, kept⟩ := (load.generate_safe (γ := γ) upholds count).ends (good trivial)
  refine ⟨reasons, fun items listed => (made items listed).length, kept.notes, ?_, ?_⟩
  · intro same
    subst same
    have ends := (FillEvents.inserts_output_approaches upholds count).draws (good rfl)
    refine ends.imp_right fun drawn => ?_
    obtain ⟨stock, ready, run⟩ := drawn
    exact ⟨_, _, run ▸ ready.runs source⟩
  · intro link same
    subst same
    have ends := (FillLinks.inserts_approaches upholds link count).draws (good rfl)
    refine ends.imp_right fun drawn => ?_
    obtain ⟨stock, ready, run⟩ := drawn
    exact ⟨_, _, _, run ▸ ready.runs link source⟩

end LineageLoad
