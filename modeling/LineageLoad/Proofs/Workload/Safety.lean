import LineageLoad.Proofs.Store.HiddenIds
import LineageLoad.Proofs.Workload.Guarantees
import LineageLoad.Proofs.Workload.Requests

/-!
Actions of a preparation that never come to a step without an answer, such as a choice from nothing.
They may stop for any other reason. Draws that a preparation comes to in the end are kept in sight:
what is ready when they begin is said of all of them at once.
-/

namespace LineageLoad

-----------------------------------------------------------------------------------------
-- Actions without defects
-----------------------------------------------------------------------------------------

/-- How an action ends that goes on as (finish) does from some point: it gets there in a good state
with a value that is (ready), or it stops before for a reason that is no defect.
-/
inductive Arrives {s α β : Type} (good : s → Prop) (finish : β → ExceptT BenchError (StateM s) α)
    (ready : β → Prop) : Except BenchError α × s → Prop
  | arrived {value state} (holds : ready value) (kept : good state)
    : Arrives good finish ready ((finish value).run state)
  | stopped {error state} (reason : error.category ≠ .defect) (kept : good state)
    : Arrives good finish ready (.error error, state)

/-- An action that arrives at (finish) from every good state. -/
def Approaches {s α β : Type} (good : s → Prop) (action : ExceptT BenchError (StateM s) α)
    (finish : β → ExceptT BenchError (StateM s) α) (ready : β → Prop) : Prop :=
  ∀ state, good state → Arrives good finish ready (action.run state)

/-- An action that keeps a property of the state and answers a value as (after) says, unless it
stops for a reason that is no defect.
-/
def Safe {s α : Type} (good : s → Prop) (action : ExceptT BenchError (StateM s) α)
    (after : α → Prop) : Prop :=
  Approaches good action pure after

section

variable {s α β ρ : Type} {good : s → Prop} {action : ExceptT BenchError (StateM s) α}
  {finish : β → ExceptT BenchError (StateM s) α} {ready : β → Prop} {after : α → Prop}

theorem Approaches.refl (value : β) (holds : ready value)
    : Approaches good (finish value) finish ready :=
  fun _ start => .arrived holds start

theorem Approaches.throw {error : BenchError} (reason : error.category ≠ .defect)
    : Approaches good (throw error) finish ready :=
  fun _ start => .stopped reason start

/-- What comes before does not matter if it is safe. -/
theorem Approaches.bind {first : ExceptT BenchError (StateM s) ρ} {middle : ρ → Prop}
    {next : ρ → ExceptT BenchError (StateM s) α} (safe : Safe good first middle)
    (rest : ∀ value, middle value → Approaches good (next value) finish ready)
    : Approaches good (first >>= next) finish ready := by
  intro state start
  have ends := safe state start
  change Arrives _ _ _ (ExceptT.bindCont next (first.run state).1 (first.run state).2)
  generalize first.run state = ended at ends ⊢
  cases ends with
  | arrived holds kept => exact rest _ holds _ kept
  | stopped reason kept => exact .stopped reason kept

theorem Approaches.branch {condition : Prop} [Decidable condition]
    {other : ExceptT BenchError (StateM s) α}
    (yes : condition → Approaches good action finish ready)
    (no : ¬condition → Approaches good other finish ready)
    : Approaches good (if condition then action else other) finish ready := by
  split
  · next holds => exact yes holds
  · next fails => exact no fails

/-- A check that fails ends an action. -/
theorem Approaches.check {missing : Prop} [Decidable missing] {error : BenchError}
    {rest : Unit → ExceptT BenchError (StateM s) α} (reason : error.category ≠ .defect)
    (present : ¬missing → Approaches good (rest ()) finish ready)
    : Approaches good (if missing then MonadExcept.throw error >>= rest else rest ()) finish
        ready :=
  .branch (fun _ _ start => .stopped reason start) present

/-- What approaches safe steps is safe. -/
theorem Approaches.safe (approaches : Approaches good action finish ready)
    (finishes : ∀ value, ready value → Safe good (finish value) after)
    : Safe good action after := by
  intro state start
  have ends := approaches state start
  generalize action.run state = ended at ends ⊢
  cases ends with
  | arrived holds kept => exact finishes _ holds _ kept
  | stopped reason kept => exact .stopped reason kept

theorem Approaches.pure {value : α} (holds : after value)
    : Approaches good (pure value) pure after :=
  .refl value holds

theorem Safe.weaken {allowed : α → Prop} (safe : Safe good action after)
    (weaker : ∀ value, after value → allowed value)
    : Safe good action allowed :=
  Approaches.safe safe fun value holds => .pure (weaker value holds)

/-- What is told of the end of a safe action. -/
theorem Safe.ends {state : s} (safe : Safe good action after) (start : good state)
    : (∀ error, (action.run state).1 = .error error → error.category ≠ .defect)
        ∧ (∀ value, (action.run state).1 = .ok value → after value)
        ∧ good (action.run state).2 := by
  have ends := safe state start
  generalize action.run state = ended at ends ⊢
  cases ends with
  | arrived holds kept => exact ⟨nofun, fun _ same => Except.ok.inj same ▸ holds, kept⟩
  | stopped reason kept => exact ⟨fun _ same => Except.error.inj same ▸ reason, nofun, kept⟩

/-- A precondition that is missing is no defect. -/
theorem Draws.safe {γ : Type} {action : DrawM γ α} (draws : Draws action after)
    : Safe (fun _ => True) action after := by
  intro source start
  have ends := draws source start
  generalize action.run source = ended at ends ⊢
  cases ends with
  | answered holds => exact .arrived holds trivial
  | lacking category => exact .stopped (ne_of_eq_of_ne category (by decide)) trivial

/-- Draws that give something are safe. -/
theorem Gives.safe {γ : Type} {action : DrawM γ α} (gives : Gives action after)
    : Safe (fun _ => True) action after :=
  gives.draws.safe

end

-----------------------------------------------------------------------------------------
-- Preparations
-----------------------------------------------------------------------------------------

/-- A note that rows are missing tells of some rows, and of (count) at most. -/
def Note.Within (count : Nat) : Note → Prop
  | makingUpTypes _ missing => 0 < missing ∧ missing ≤ count
  | makingUpNodes _ missing => 0 < missing ∧ missing ≤ count
  | _ => True

/-- A preparation in good order: its store and its source are as given properties say, and what it
noted as missing lies within the number of operations.
-/
structure Preparation.Good {σ γ : Type} (holds : σ → Prop) (drawn : γ → Prop) (count : Nat)
    (p : Preparation σ γ) : Prop where
  store : holds p.store
  source : drawn p.source
  notes : ∀ note ∈ p.notes, note.Within count

section

variable {σ γ α : Type} {holds : σ → Prop} {drawn : γ → Prop} {count : Nat} {after : α → Prop}
  {store : Store σ}

theorem Safe.onStore {action : BenchM σ α} (safe : Safe holds action after)
    : Safe (Preparation.Good holds drawn count) (PrepareM.onStore action : PrepareM σ γ α)
        after := by
  intro p start
  have ends := safe p.store start.store
  change Arrives _ _ _ (((action.run p.store).1, { p with store := (action.run p.store).2 })
    : Except BenchError α × Preparation σ γ)
  generalize action.run p.store = ended at ends ⊢
  cases ends with
  | arrived given kept => exact .arrived given ⟨kept, start.source, start.notes⟩
  | stopped reason kept => exact .stopped reason ⟨kept, start.source, start.notes⟩

theorem Safe.onSource {action : DrawM γ α} (safe : Safe drawn action after)
    : Safe (Preparation.Good holds drawn count) (PrepareM.onSource action : PrepareM σ γ α)
        after := by
  intro p start
  have ends := safe p.source start.source
  change Arrives _ _ _ (((action.run p.source).1, { p with source := (action.run p.source).2 })
    : Except BenchError α × Preparation σ γ)
  generalize action.run p.source = ended at ends ⊢
  cases ends with
  | arrived given kept => exact .arrived given ⟨start.store, kept, start.notes⟩
  | stopped reason kept => exact .stopped reason ⟨start.store, kept, start.notes⟩

/-- An action that comes to draws in the end either stops before anything is drawn, or what it draws
is what they draw from its source.
-/
theorem Approaches.draws {β : Type} {action : PrepareM σ γ α} {draws : β → DrawM γ α}
    {ready : β → Prop} {p : Preparation σ γ}
    (approaches
      : Approaches (Preparation.Good holds (· = p.source) count) action
        (fun value => PrepareM.onSource (draws value)) ready)
    (start : p.Good holds (· = p.source) count)
    : (∃ error, (action.run p).1 = .error error) ∧ (action.run p).2.source = p.source
        ∨ ∃ value, ready value
          ∧ (draws value).run p.source = ((action.run p).1, (action.run p).2.source) := by
  have ends := approaches p start
  generalize action.run p = ended at ends ⊢
  cases ends with
  | arrived holds kept =>
      refine .inr ⟨_, holds, ?_⟩
      rw [← kept.source]
      rfl
  | stopped _ kept => exact .inl ⟨⟨_, rfl⟩, kept.source⟩

theorem Safe.note {note : Note} (within : note.Within count)
    : Safe (Preparation.Good holds drawn count) (PrepareM.note note : PrepareM σ γ Unit)
        fun _ => True := by
  intro p start
  refine .arrived trivial ⟨start.store, start.source, ?_⟩
  exact List.forall_mem_append.mpr ⟨start.notes, List.forall_mem_singleton.mpr within⟩

end

-----------------------------------------------------------------------------------------
-- Stores
-----------------------------------------------------------------------------------------

/-- The calls that are issued while a load is prepared: those that read, and those that make up for
missing rows, each of which is numbered by the load.
-/
inductive Call.Preparing : Call → Prop
  | read {call} (reading : call.isWrite = false) : Preparing call
  | type {kind type number} (named : type.name = numbered "type_" number)
    : Preparing (.putType kind type false)
  | node {kind node number} (named : node.name = some (numbered "node_" number))
    : Preparing (.putNodes kind [node])

/-- A store that keeps a property of its states while loads are prepared, and that lists no id of a
node twice while it has the property.
-/
structure Store.Upholds {σ : Type} (store : Store σ) (holds : σ → Prop) : Prop where
  kept : ∀ call state, call.Preparing → holds state → holds (store.serve call state).2
  apart
    : ∀ kind state nodes, holds state → (store.serve (.getNodes kind) state).1 = .ok nodes →
        (nodes.filterMap (·.id)).Nodup

/-- The calls of the items of a load: new rows are numbered, versions have the name of a row that
the store lists while it has a property, and loads that read only read.
-/
inductive Store.Issues {σ : Type} (store : Store σ) (holds : σ → Prop) : Load Sampler → Call → Prop
  | newType {kind numProperties type number} (named : type.name = numbered "type_" number)
    : Issues store holds (.fillTypes kind false numProperties) (.putType kind type false)
  | typeVersion {kind numProperties type state types} (held : holds state)
    (listed : (store.serve (.getTypes kind) state).1 = .ok types)
    (named : type.name ∈ types.map (·.name))
    : Issues store holds (.fillTypes kind true numProperties) (.putType kind type true)
  | newNode {kind numProperties stringBytes node number}
    (named : node.name = some (numbered "node_" number))
    : Issues store holds (.fillNodes kind false numProperties stringBytes) (.putNodes kind [node])
  | nodeVersion {kind numProperties stringBytes node state nodes} (held : holds state)
    (listed : (store.serve (.getNodes kind) state).1 = .ok nodes)
    (named : node.name ∈ nodes.map (·.name))
    : Issues store holds (.fillNodes kind true numProperties stringBytes) (.putNodes kind [node])
  | link {link node context}
    : Issues store holds (.fillLinks link) (FillLinks.item link node context).call
  | event {event} : Issues store holds (.fillEvents event.direction) (.putEvents [event])
  | read {load call} (loads : load.isReading = true) (reading : call.isWrite = false)
    : Issues store holds load call

/-- As many items as are asked for, with calls of their load. -/
structure Store.Synthesizes {σ : Type} (store : Store σ) (holds : σ → Prop) (load : Load Sampler)
    (count : Nat) (items : List WorkItem) : Prop where
  length : items.length = count
  issues : ∀ item ∈ items, store.Issues holds load item.call

section

variable {σ γ : Type} {holds : σ → Prop} {drawn : γ → Prop} {count : Nat} {store : Store σ}
  {load : Load Sampler} {call : Call}

/-- What inserts types also makes up for missing ones. -/
theorem Store.Issues.preparing_type {kind : Kind} {numProperties : Sampler}
    (issues : store.Issues holds (.fillTypes kind false numProperties) call)
    : call.Preparing := by
  cases issues with
  | newType named => exact .type named
  | read loads => cases loads

/-- What inserts nodes also makes up for missing ones. -/
theorem Store.Issues.preparing_node {kind : Kind} {numProperties stringBytes : Sampler}
    (issues : store.Issues holds (.fillNodes kind false numProperties stringBytes) call)
    : call.Preparing := by
  cases issues with
  | newNode named => exact .node named
  | read loads => cases loads

theorem Store.Synthesizes.nil
    : store.Synthesizes holds load 0 [] :=
  ⟨rfl, List.forall_mem_nil _⟩

theorem Store.Synthesizes.cons {item : WorkItem} {rest : List WorkItem}
    (first : store.Issues holds load item.call) (others : store.Synthesizes holds load count rest)
    : store.Synthesizes holds load (count + 1) (item :: rest) :=
  ⟨congrArg Nat.succ others.length, List.forall_mem_cons.mpr ⟨first, others.issues⟩⟩

/-- A refusal of the store is no defect. -/
theorem Store.Upholds.request_safe (upholds : store.Upholds holds)
    (reading : call.isWrite = false)
    : Safe holds (store.request call) fun reply =>
        ∃ state, holds state ∧ (store.serve call state).1 = .ok reply := by
  intro state start
  have kept := upholds.kept call state (.read reading) start
  change Arrives _ _ _ ((store.serve call state).1.mapError BenchError.store,
    (store.serve call state).2)
  cases answered : (store.serve call state).1 with
  | error error => exact .stopped nofun kept
  | ok reply => exact .arrived ⟨state, start, answered⟩ kept

theorem Store.Upholds.types_safe (upholds : store.Upholds holds) (kind : Kind)
    : Safe (Preparation.Good holds drawn count)
        (PrepareM.onStore (store.existingTypes kind) : PrepareM σ γ _) fun types =>
        ∃ state, holds state ∧ (store.serve (.getTypes kind) state).1 = .ok types :=
  (upholds.request_safe rfl).onStore

theorem Store.Upholds.nodes_safe (upholds : store.Upholds holds) (kind : Kind)
    : Safe (Preparation.Good holds drawn count)
        (PrepareM.onStore (store.existingNodes kind) : PrepareM σ γ _) fun nodes =>
        ∃ state, holds state ∧ (store.serve (.getNodes kind) state).1 = .ok nodes :=
  (upholds.request_safe rfl).onStore

/-- The ids that are listed differ. -/
theorem Store.Upholds.ids_safe (upholds : store.Upholds holds) (kind : Kind)
    : Safe (Preparation.Good holds drawn count)
        (PrepareM.onStore (store.existingNodes kind) : PrepareM σ γ _)
        fun nodes => (nodes.filterMap (·.id)).Nodup := by
  refine (upholds.nodes_safe kind).weaken fun nodes listed => ?_
  obtain ⟨state, start, answered⟩ := listed
  exact upholds.apart kind state nodes start answered

theorem Store.Upholds.totalTypes_safe (upholds : store.Upholds holds)
    : Safe holds store.totalTypes fun _ => True := by
  refine .bind (upholds.request_safe rfl) fun _ _ => ?_
  refine .bind (upholds.request_safe rfl) fun _ _ => ?_
  exact .bind (upholds.request_safe rfl) fun _ _ => .pure trivial

/-- A call that is refused is noted, and the preparation goes on. -/
theorem Store.Upholds.issue_safe (upholds : store.Upholds holds) {failed : BenchError → Note}
    (within : ∀ error, (failed error).Within count) (preparing : call.Preparing)
    : Safe (Preparation.Good holds drawn count)
        (PrepareM.issue store failed call : PrepareM σ γ Unit) fun _ => True := by
  intro p start
  refine .arrived trivial ⟨upholds.kept call p.store preparing start.store, start.source, ?_⟩
  split
  · exact start.notes
  · exact List.forall_mem_append.mpr ⟨start.notes, List.forall_mem_singleton.mpr (within _)⟩

/-- By induction on the items. -/
theorem Store.Upholds.forM_issue_safe (upholds : store.Upholds holds)
    {failed : WorkItem → BenchError → Note}
    (within : ∀ item error, (failed item error).Within count) {items : List WorkItem}
    (preparing : ∀ item ∈ items, item.call.Preparing)
    : Safe (Preparation.Good holds drawn count)
        (items.forM fun item =>
          (PrepareM.issue store (failed item) item.call : PrepareM σ γ Unit)) fun _ => True := by
  induction items with
  | nil => exact .pure trivial
  | cons item rest ih =>
      obtain ⟨first, others⟩ := List.forall_mem_cons.mp preparing
      exact .bind (upholds.issue_safe (within item) first) fun _ _ => ih others

/-- Hidden ids do not hurt. -/
theorem Store.Upholds.withHiddenIds (upholds : store.Upholds holds)
    (hides : σ → Call → Nat → Bool)
    : (store.withHiddenIds hides).Upholds holds where
  kept := upholds.kept
  apart := by
    intro kind state shown start answered
    change ((store.serve (.getNodes kind) state).1.map _) = _ at answered
    cases listed : (store.serve (.getNodes kind) state).1 with
    | error =>
        rw [listed] at answered
        cases answered
    | ok nodes =>
        rw [listed] at answered
        cases answered
        exact (upholds.apart kind state nodes start listed).sublist (sublist_shownIds _ nodes)

end

/-- Contents that fail at any call keep what they keep for each call that they may serve or not, if
they are sound all along.
-/
theorem Database.upholds_withFailures {holds : Database → Prop}
    (fails : List Answer → Call → Option StoreError) (sound : ∀ {db}, holds db → db.Sound)
    (kept
      : ∀ {db next : Database} {call : Call} {reply}, call.Preparing → holds db →
          db.Attempts call reply next → holds next)
    : (store.withFailures fails).Upholds fun trial => holds trial.1 where
  kept := by
    intro call trial preparing start
    obtain ⟨reply, next, answered, attempts⟩ := serve_withFailures fails call trial.1 trial.2
    change holds ((store.withFailures fails).serve call (trial.1, trial.2)).2.1
    rw [answered]
    exact kept preparing start attempts
  apart := by
    intro kind trial nodes start listed
    cases serve_of_withFailures listed
    exact (sound start).nodup_ids

end LineageLoad
