import LineageLoad.Proofs.Store.Failures
import LineageLoad.Proofs.Workload.Successes

/-!
Actions of a preparation that may fail at any call. Each ends with a value or with an error, and for
both it is said in which state. A load that does not update only reads while it is prepared.
-/

namespace LineageLoad

-----------------------------------------------------------------------------------------
-- Actions that may fail
-----------------------------------------------------------------------------------------

/-- How an action ends: with a value and in a state as (after) says, or with an error in a state as
(failed) says.
-/
inductive Leaves {s α : Type} (after : α → s → Prop) (failed : s → Prop)
    : Except BenchError α × s → Prop
  | answered {value state} (holds : after value state) : Leaves after failed (.ok value, state)
  | stopped {error state} (holds : failed state) : Leaves after failed (.error error, state)

/-- An action that starts in a state with (before) ends as (after) says, or as (failed) says if it
fails.
-/
def Leads {s α : Type} (before : s → Prop) (action : ExceptT BenchError (StateM s) α)
    (after : α → s → Prop) (failed : s → Prop) : Prop :=
  ∀ state, before state → Leaves after failed (action.run state)

/-- An action that keeps a property of the state, however it ends. -/
def Keeps {s α : Type} (holds : s → Prop) (action : ExceptT BenchError (StateM s) α) : Prop :=
  Leads holds action (fun _ => holds) holds

section

variable {s α β : Type} {before : s → Prop} {action : ExceptT BenchError (StateM s) α}
  {next : α → ExceptT BenchError (StateM s) β} {value : α} {after : α → s → Prop}
  {failed : s → Prop}

theorem Leads.pure (holds : ∀ state, before state → after value state)
    : Leads before (pure value) after failed :=
  fun state start => .answered (holds state start)

theorem Leads.branch {condition : Prop} [Decidable condition]
    {other : ExceptT BenchError (StateM s) α} (yes : condition → Leads before action after failed)
    (no : ¬condition → Leads before other after failed)
    : Leads before (if condition then action else other) after failed := by
  split
  · next holds => exact yes holds
  · next fails => exact no fails

/-- Two actions one after the other: the second one starts where the first one ends. -/
theorem Leads.bind {middle : α → s → Prop} {after : β → s → Prop}
    (first : Leads before action middle failed)
    (rest : ∀ value, Leads (middle value) (next value) after failed)
    : Leads before (action >>= next) after failed := by
  intro state start
  have ends := first state start
  change Leaves after failed (ExceptT.bindCont next (action.run state).1 (action.run state).2)
  generalize action.run state = ended at ends ⊢
  cases ends with
  | answered holds => exact rest _ _ holds
  | stopped holds => exact .stopped holds

/-- A check that fails ends an action. -/
theorem Leads.check {missing : Prop} [Decidable missing] {error : BenchError}
    {rest : Unit → ExceptT BenchError (StateM s) α}
    (lacking : missing → ∀ state, before state → failed state)
    (present : ¬missing → Leads before (rest ()) after failed)
    : Leads before (if missing then MonadExcept.throw error >>= rest else rest ()) after failed :=
  .branch (fun holds state start => .stopped (lacking holds state start)) present

theorem Leads.weaken {allowed : α → s → Prop} {ended : s → Prop}
    (leads : Leads before action after failed)
    (weaker : ∀ value state, after value state → allowed value state)
    (further : ∀ state, failed state → ended state)
    : Leads before action allowed ended := by
  intro state start
  have ends := leads state start
  generalize action.run state = ended at ends ⊢
  cases ends with
  | answered holds => exact .answered (weaker _ _ holds)
  | stopped holds => exact .stopped (further _ holds)

/-- What is known of both ends is known of the state that an action leaves. -/
theorem Leads.left {ended : s → Prop} (leads : Leads before action after failed)
    (answered : ∀ value state, after value state → ended state)
    (stopped : ∀ state, failed state → ended state) {state : s} (start : before state)
    : ended (action.run state).2 := by
  have ends := leads state start
  generalize action.run state = last at ends ⊢
  cases ends with
  | answered holds => exact answered _ _ holds
  | stopped holds => exact stopped _ holds

/-- What yields something does not fail. -/
theorem Yields.leads (yields : Yields before action after)
    : Leads before action after failed := by
  intro state start
  obtain ⟨value, next, run, holds⟩ := yields state start
  rw [run]
  exact .answered holds

/-- What cannot fail yields something. -/
theorem Leads.yields (leads : Leads before action after failed) (never : ∀ state, ¬failed state)
    : Yields before action after := by
  intro state start
  have ends := leads state start
  generalize action.run state = ended at ends ⊢
  cases ends with
  | answered holds => exact ⟨_, _, rfl, holds⟩
  | stopped holds => exact absurd holds (never _)

theorem Keeps.pure {holds : s → Prop}
    : Keeps holds (pure value : ExceptT BenchError (StateM s) α) :=
  Leads.pure fun _ start => start

theorem Keeps.bind {holds : s → Prop} (first : Keeps holds action)
    (rest : ∀ value, Keeps holds (next value))
    : Keeps holds (action >>= next) :=
  Leads.bind first rest

theorem Keeps.check {holds : s → Prop} {missing : Prop} [Decidable missing] {error : BenchError}
    {rest : Unit → ExceptT BenchError (StateM s) α} (present : Keeps holds (rest ()))
    : Keeps holds (if missing then MonadExcept.throw error >>= rest else rest ()) :=
  Leads.check (fun _ _ start => start) fun _ => present

end

section

variable {σ γ α : Type} {before : σ → Prop} {failed : σ → Prop}

/-- A preparation acts on its store as the store is acted on. -/
theorem Leads.onStore {action : BenchM σ α} {after : α → σ → Prop}
    (leads : Leads before action after failed)
    : Leads (Preparation.On before) (PrepareM.onStore action : PrepareM σ γ α)
        (fun value => Preparation.On (after value)) (Preparation.On failed) := by
  intro p start
  have ends := leads p.store start
  change Leaves _ _ (((action.run p.store).1, { p with store := (action.run p.store).2 })
    : Except BenchError α × Preparation σ γ)
  generalize action.run p.store = ended at ends ⊢
  cases ends with
  | answered holds => exact .answered holds
  | stopped holds => exact .stopped holds

/-- Draws leave the store, whether they find something or not. -/
theorem Keeps.onSource (action : DrawM γ α)
    : Keeps (Preparation.On before) (PrepareM.onSource action : PrepareM σ γ α) := by
  intro p start
  change Leaves _ _ (((action.run p.source).1, { p with source := (action.run p.source).2 })
    : Except BenchError α × Preparation σ γ)
  cases (action.run p.source).1 with
  | error _ => exact .stopped start
  | ok _ => exact .answered start

theorem note_leads (note : Note)
    : Leads (Preparation.On before) (PrepareM.note note : PrepareM σ γ Unit)
        (fun _ => Preparation.On before) (Preparation.On failed) :=
  fun _ start => .answered start

end

-----------------------------------------------------------------------------------------
-- Loads that only read while they are prepared
-----------------------------------------------------------------------------------------

/-- Calls that only read keep a property of the states of a store. -/
def Store.ReadsKeep {σ : Type} (store : Store σ) (holds : σ → Prop) : Prop :=
  ∀ call, call.isWrite = false → ∀ state, holds state → holds (store.serve call state).2

/-- Whether a load updates rows, so that its preparation makes up for those that are missing. -/
def Load.isUpdating : Load Sampler → Bool
  | fillTypes _ update _ => update
  | fillNodes _ update .. => update
  | _ => false

section

variable {σ γ : Type} {store : Store σ} {holds : σ → Prop} {kind : Kind}

theorem Store.ReadsKeep.request (keep : store.ReadsKeep holds) {call : Call}
    (reading : call.isWrite = false)
    : Keeps holds (store.request call) := by
  intro state start
  have kept := keep call reading state start
  change Leaves _ _ ((store.serve call state).1.mapError BenchError.store,
    (store.serve call state).2)
  cases (store.serve call state).1 with
  | error _ => exact .stopped kept
  | ok _ => exact .answered kept

theorem Store.ReadsKeep.existingTypes (keep : store.ReadsKeep holds) (kind : Kind)
    : Keeps (Preparation.On holds)
        (PrepareM.onStore (store.existingTypes kind) : PrepareM σ γ _) :=
  Leads.onStore (keep.request rfl)

theorem Store.ReadsKeep.existingNodes (keep : store.ReadsKeep holds) (kind : Kind)
    : Keeps (Preparation.On holds)
        (PrepareM.onStore (store.existingNodes kind) : PrepareM σ γ _) :=
  Leads.onStore (keep.request rfl)

theorem Store.ReadsKeep.totalTypes (keep : store.ReadsKeep holds)
    : Keeps holds store.totalTypes :=
  .bind (keep.request rfl) fun _ => .bind (keep.request rfl) fun _ =>
    .bind (keep.request rfl) fun _ => .pure

/-- By induction on the contexts. -/
theorem FillLinks.storedPairs_keeps (keep : store.ReadsKeep holds) (link : LinkKind)
    (contexts : List EntityId) (known : PairSet)
    : Keeps holds (storedPairs link store contexts known) := by
  induction contexts generalizing known with
  | nil => exact .pure
  | cons context rest ih =>
      have asked : Keeps holds (linkedNodes link store context) := by
        cases link with
        | attribution => exact keep.request rfl
        | association => exact keep.request rfl
      exact .bind asked fun nodes => ih _

theorem ReadLinked.isWrite_linkCall (read : LinkRead) (id : EntityId)
    : (linkCall read id).isWrite = false := by
  cases read <;> rfl

theorem ReadLinked.isWrite_eventCall (read : EventRead) (id : EntityId)
    : (eventCall read id).isWrite = false := by
  cases read <;> rfl

variable [WordSource γ]

theorem FillTypes.inserts_keeps (keep : store.ReadsKeep holds) (numProperties : Sampler)
    (count : Nat)
    : Keeps (Preparation.On holds) (inserts kind numProperties store count : PrepareM σ γ _) :=
  .bind (keep.existingTypes _) fun _ => .bind (Leads.onStore keep.totalTypes) fun _ => .onSource _

theorem FillNodes.inserts_keeps (keep : store.ReadsKeep holds)
    (numProperties stringBytes : Sampler) (count : Nat)
    : Keeps (Preparation.On holds)
        (inserts kind numProperties stringBytes store count : PrepareM σ γ _) :=
  .bind (keep.existingTypes _) fun _ => .check (.bind (keep.existingNodes _) fun _ => .onSource _)

theorem FillLinks.inserts_keeps (keep : store.ReadsKeep holds) (link : LinkKind) (count : Nat)
    : Keeps (Preparation.On holds) (inserts link store count : PrepareM σ γ _) :=
  .bind (keep.existingNodes _) fun _ => .bind (keep.existingNodes _) fun _ =>
    .bind (Leads.onStore (storedPairs_keeps keep link _ _)) fun _ => .check (.onSource _)

theorem FillEvents.inserts_keeps (keep : store.ReadsKeep holds) (direction : Direction)
    (count : Nat)
    : Keeps (Preparation.On holds) (inserts direction store count : PrepareM σ γ _) := by
  refine .bind (keep.existingNodes _) fun _ => .bind (keep.existingNodes _) fun _ => .check ?_
  cases direction with
  | input => exact .onSource _
  | output => exact .bind (Leads.onStore (keep.request rfl)) fun _ => .check (.onSource _)

theorem ReadTypes.reads_keeps (keep : store.ReadsKeep holds) (read : TypeRead) (count : Nat)
    : Keeps (Preparation.On holds) (reads kind read store count : PrepareM σ γ _) :=
  .bind (keep.existingTypes _) fun _ => .check (.onSource _)

theorem ReadNodes.reads_keeps (keep : store.ReadsKeep holds) (read : NodeRead) (count : Nat)
    : Keeps (Preparation.On holds) (reads kind read store count : PrepareM σ γ _) := by
  refine .bind (keep.existingNodes _) fun _ => ?_
  cases read with
  | byId => exact .onSource _
  | byType => exact .bind (keep.existingTypes _) fun _ => .check (.onSource _)
  | byTypeAndName => exact .onSource _

/-- By induction on the number of items. -/
theorem ReadLinked.items_keeps (keep : store.ReadsKeep holds) {call : EntityId → Call}
    (reading : ∀ id, (call id).isWrite = false) (ids : List EntityId) (count : Nat)
    (sizes : List (EntityId × Nat))
    : Keeps (Preparation.On holds) (items store call ids count sizes : PrepareM σ γ _) := by
  induction count generalizing sizes with
  | zero => exact .pure
  | succ count ih =>
      refine .bind (.onSource _) fun id => ?_
      -- The other items follow in the same way on a known size and on one that is asked for.
      have goesOn (bytes : Nat) : Keeps (Preparation.On holds)
          (do
            let rest ← items store call ids count ((id, bytes) :: sizes)
            return ⟨call id, bytes⟩ :: rest : PrepareM σ γ _) :=
        .bind (ih _) fun _ => .pure
      have measured : Keeps holds (measure store (call id)) :=
        .bind (keep.request (reading id)) fun _ => .pure
      split
      · exact goesOn _
      · exact .bind (Leads.onStore measured) goesOn

theorem ReadLinked.reads_keeps (keep : store.ReadsKeep holds) {call : EntityId → Call}
    (reading : ∀ id, (call id).isWrite = false) (nothing : BenchError) (count : Nat)
    : Keeps (Preparation.On holds) (reads kind nothing call store count : PrepareM σ γ _) :=
  .bind (keep.existingNodes _) fun _ => .check (items_keeps keep reading _ _ _)

/-- A load that does not update only reads, by the kinds of load. -/
theorem Load.generate_keeps (keep : store.ReadsKeep holds) {load : Load Sampler}
    (inserting : load.isUpdating = false) (count : Nat)
    : Keeps (Preparation.On holds) (load.generate store count : PrepareM σ γ _) := by
  cases load with
  | fillTypes kind update numProperties =>
      cases update with
      | false => exact FillTypes.inserts_keeps keep numProperties count
      | true => cases inserting
  | fillNodes kind update numProperties stringBytes =>
      cases update with
      | false => exact FillNodes.inserts_keeps keep numProperties stringBytes count
      | true => cases inserting
  | fillLinks link => exact FillLinks.inserts_keeps keep link count
  | fillEvents direction => exact FillEvents.inserts_keeps keep direction count
  | readTypes kind read => exact ReadTypes.reads_keeps keep read count
  | readNodes kind read => exact ReadNodes.reads_keeps keep read count
  | readLinked read => exact ReadLinked.reads_keeps keep (ReadLinked.isWrite_linkCall read) _ count
  | readEvents read => exact ReadLinked.reads_keeps keep (ReadLinked.isWrite_eventCall read) _ count

end

end LineageLoad
