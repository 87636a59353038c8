import LineageLoad.Benchmark
import LineageLoad.Proofs.Workload.FillEvents
import LineageLoad.Proofs.Workload.FillLinks
import LineageLoad.Proofs.Workload.FillNodes
import LineageLoad.Proofs.Workload.FillTypes
import LineageLoad.Proofs.Workload.Reads

/-!
A preparation of any load either finds that a precondition is missing or holds as many items as the
workload has operations, whose requests are open.
-/

namespace LineageLoad

variable {γ : Type} {db : Database} {name : String} {connection : Connection}

/-- The rows that updates miss: there must be one for each operation. -/
def Load.missing (load : Load Sampler) (count : Nat) (db : Database) : Nat :=
  match load with
  | fillTypes kind true _ => count - (db.typesOf kind).length
  | fillNodes kind true .. => count - (db.nodesOf kind).length
  | _ => 0

variable [WordSource γ]

/-- Whatever is drawn, a load synthesizes open requests, by the kinds of load. -/
theorem Load.generate_opens (sound : db.Sound) (load : Load Sampler) (count : Nat)
    : Ensures (Preparation.Reaches · name connection db)
        (load.generate (Server.store connection) count : PrepareM Server γ _)
        (load.Opens (load.missing count db) db name connection) := by
  cases load with
  | fillTypes kind update numProperties =>
      cases update with
      | false =>
          exact opens_of_pending sound (.refl _ db) ((FillTypes.inserts_creates count).weaken
            fun _ _ ⟨⟨_, pending⟩, reaches⟩ => ⟨pending, reaches⟩)
      | true => exact FillTypes.updates_opens sound count
  | fillNodes kind update numProperties stringBytes =>
      cases update with
      | false =>
          exact opens_of_pending sound (.refl _ db) ((FillNodes.inserts_creates sound count).weaken
            fun _ _ ⟨⟨_, creates⟩, reaches⟩ => ⟨creates.pending, reaches⟩)
      | true => exact FillNodes.updates_opens sound count
  | fillLinks link =>
      exact opens_of_pending sound (.refl _ db) (FillLinks.inserts_pending sound link count)
  | fillEvents direction =>
      exact opens_of_pending sound (.refl _ db) (FillEvents.inserts_pending sound direction count)
  | readTypes => exact opens_of_pending sound (.refl _ db) (generate_pending sound rfl count)
  | readNodes => exact opens_of_pending sound (.refl _ db) (generate_pending sound rfl count)
  | readLinked => exact opens_of_pending sound (.refl _ db) (generate_pending sound rfl count)
  | readEvents => exact opens_of_pending sound (.refl _ db) (generate_pending sound rfl count)

namespace GeneratedWorkload

/-- A workload that is prepared for contents: its requests are open, and since the preparation began
the contents changed by the rows that were missing.
-/
structure IsOpen (workload : GeneratedWorkload (Load Sampler) γ) (load : Load Sampler) (made : Nat)
    (before db : Database) : Prop where
  prepared : workload.isPrepared = true
  changes : load.Changes made 0 before db
  pending : load.Pending db (workload.items.map (·.call))

/-- A preparation that fails lacks a precondition, and one that succeeds holds an item for each
operation, with open requests.
-/
theorem prepare_cases (workload : GeneratedWorkload (Load Sampler) γ) {server : Server}
    (reaches : server.Reaches name connection db) (sound : db.Sound)
    : (∃ error, (workload.prepare (Server.store connection) server).1.1 = .error error
        ∧ error.category = .failedPrecondition)
      ∨ (workload.prepare (Server.store connection) server).1.1 = .ok ()
        ∧ ∃ next,
          (workload.prepare (Server.store connection) server).2.2.Reaches name connection next
          ∧ next.Sound
          ∧ (workload.prepare (Server.store connection) server).2.1.items.length
            = workload.numOperations
          ∧ (workload.prepare (Server.store connection) server).2.1.IsOpen workload.generator
            (workload.generator.missing workload.numOperations db) db next := by
  unfold prepare
  -- Without operations nothing is asked for, and no row can be missing.
  by_cases empty : workload.numOperations = 0
  · rw [if_pos empty, empty]
    refine .inr ⟨rfl, db, reaches, sound, rfl, rfl, ?_, .nil⟩
    have none : workload.generator.missing 0 db = 0 := by
      unfold Load.missing
      split
      · exact Nat.zero_sub _
      · exact Nat.zero_sub _
      · rfl
    rw [none]
    exact .refl _ db
  · rw [if_neg empty]
    have ends := workload.generator.generate_opens sound workload.numOperations
      { store := server, source := workload.source, notes := [] } reaches
    change Ends _ ((Generator.generate workload.generator (Server.store connection)
      workload.numOperations).run _) at ends
    generalize (Generator.generate workload.generator (Server.store connection)
      workload.numOperations).run
        { store := server, source := workload.source, notes := [] : Preparation Server γ } = ended
      at ends ⊢
    cases ends with
    | lacking category => exact .inl ⟨_, rfl, category⟩
    | @answered items p opens =>
        obtain ⟨next, reaches, sound, changes, pending⟩ := opens
        dsimp only
        split
        · next length => exact .inr ⟨rfl, next, reaches, sound, length, rfl, changes, pending⟩
        · exact .inl ⟨_, rfl, rfl⟩

end GeneratedWorkload

end LineageLoad
