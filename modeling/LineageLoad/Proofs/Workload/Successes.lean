import LineageLoad.Proofs.Random.Choices
import LineageLoad.Proofs.Store.Connection
import LineageLoad.Workload.Lifecycle

/-!
Actions of a preparation that succeed, whatever words are drawn. Reads answer one known value, draws
yield something as claimed, and a load as a whole succeeds exactly if there is something to work on.
-/

namespace LineageLoad

-----------------------------------------------------------------------------------------
-- Successful actions
-----------------------------------------------------------------------------------------

/-- An action that starts in a state with (before) answers this value and keeps (before). -/
def Answers {s α : Type} (before : s → Prop) (action : ExceptT BenchError (StateM s) α)
    (value : α) : Prop :=
  ∀ state, before state → ∃ next, action.run state = (.ok value, next) ∧ before next

/-- An action that starts in a state with (before) answers some value and ends as (after) says. -/
def Yields {s α : Type} (before : s → Prop) (action : ExceptT BenchError (StateM s) α)
    (after : α → s → Prop) : Prop :=
  ∀ state, before state → ∃ value next, action.run state = (.ok value, next) ∧ after value next

/-- How an action ends that succeeds exactly if (possible): as (after) says, or else without a
precondition and with (before) kept.
-/
inductive Resolves {s α : Type} (possible : Prop) (before : s → Prop) (after : α → s → Prop)
    : Except BenchError α × s → Prop
  | succeeded {value state} (can : possible) (holds : after value state)
    : Resolves possible before after (.ok value, state)
  | refused {error state} (cannot : ¬possible) (category : error.category = .failedPrecondition)
    (kept : before state)
    : Resolves possible before after (.error error, state)

/-- An action that starts in a state with (before) succeeds exactly if (possible). -/
def SucceedsIff {s α : Type} (possible : Prop) (before : s → Prop)
    (action : ExceptT BenchError (StateM s) α) (after : α → s → Prop) : Prop :=
  ∀ state, before state → Resolves possible before after (action.run state)

section

variable {s α β : Type} {before : s → Prop} {action : ExceptT BenchError (StateM s) α}
  {next : α → ExceptT BenchError (StateM s) β} {value : α} {possible : Prop}

theorem Answers.pure
    : Answers before (pure value : ExceptT BenchError (StateM s) α) value :=
  fun state start => ⟨state, rfl, start⟩

/-- What follows on an action that succeeds goes on with its answer in the state that it leaves. -/
theorem run_bind_of_ok {state kept : s} (run : action.run state = (.ok value, kept))
    (next : α → ExceptT BenchError (StateM s) β)
    : (action >>= next).run state = (next value).run kept := by
  change ExceptT.bindCont next (action.run state).1 (action.run state).2 = _
  rw [run]
  rfl

/-- What follows on an action that fails is left out. -/
theorem run_bind_of_error {state kept : s} {error : BenchError}
    (run : action.run state = (.error error, kept))
    (next : α → ExceptT BenchError (StateM s) β)
    : (action >>= next).run state = (.error error, kept) := by
  change ExceptT.bindCont next (action.run state).1 (action.run state).2 = _
  rw [run]
  rfl

/-- What follows on a known answer goes on with it. -/
theorem Answers.run_bind (answers : Answers before action value)
    (next : α → ExceptT BenchError (StateM s) β) {state : s} (start : before state)
    : ∃ kept, (action >>= next).run state = (next value).run kept ∧ before kept := by
  obtain ⟨kept, answer, holds⟩ := answers state start
  exact ⟨kept, run_bind_of_ok answer next, holds⟩

theorem Answers.bind {answer : β} (first : Answers before action value)
    (rest : Answers before (next value) answer)
    : Answers before (action >>= next) answer := by
  intro state start
  obtain ⟨kept, run, holds⟩ := first.run_bind next start
  rw [run]
  exact rest kept holds

theorem Answers.yields (answers : Answers before action value)
    : Yields before action fun answer state => answer = value ∧ before state :=
  fun state start => (answers state start).elim fun kept holds =>
    ⟨value, kept, holds.1, rfl, holds.2⟩

theorem Yields.pure {after : α → s → Prop} (holds : ∀ state, before state → after value state)
    : Yields before (pure value) after :=
  fun state start => ⟨value, state, rfl, holds state start⟩

/-- Two actions one after the other: the second one starts where the first one ends. -/
theorem Yields.bind {middle : α → s → Prop} {after : β → s → Prop}
    (first : Yields before action middle)
    (rest : ∀ value, Yields (middle value) (next value) after)
    : Yields before (action >>= next) after := by
  intro state start
  obtain ⟨value, kept, answer, holds⟩ := first state start
  rw [run_bind_of_ok answer next]
  exact rest value kept holds

theorem Yields.weaken {after allowed : α → s → Prop} (yields : Yields before action after)
    (weaker : ∀ value state, after value state → allowed value state)
    : Yields before action allowed := by
  intro state start
  obtain ⟨value, next, run, holds⟩ := yields state start
  exact ⟨value, next, run, weaker value next holds⟩

/-- A check that fails ends an action which is not possible then. -/
theorem SucceedsIff.check {missing : Prop} [Decidable missing] {error : BenchError}
    {rest : Unit → ExceptT BenchError (StateM s) α} {after : α → s → Prop}
    (category : error.category = .failedPrecondition) (cannot : missing → ¬possible)
    (present : ¬missing → SucceedsIff possible before (rest ()) after)
    : SucceedsIff possible before
        (if missing then MonadExcept.throw error >>= rest else rest ()) after := by
  split
  · next fails => exact fun _ kept => .refused (cannot fails) category kept
  · next holds => exact present holds

theorem SucceedsIff.throw {error : BenchError} {after : α → s → Prop}
    (category : error.category = .failedPrecondition) (cannot : ¬possible)
    : SucceedsIff possible before (throw error : ExceptT BenchError (StateM s) α) after :=
  fun _ kept => .refused cannot category kept

/-- What is possible and yields something succeeds. -/
theorem Yields.succeedsIff {after : α → s → Prop} (yields : Yields before action after)
    (can : possible)
    : SucceedsIff possible before action after := by
  intro state start
  obtain ⟨value, next, run, holds⟩ := yields state start
  rw [run]
  exact .succeeded can holds

theorem SucceedsIff.yields {after : α → s → Prop}
    (succeeds : SucceedsIff possible before action after) (can : possible)
    : Yields before action after := by
  intro state start
  have resolves := succeeds state start
  generalize action.run state = ended at resolves ⊢
  cases resolves with
  | succeeded _ holds => exact ⟨_, _, rfl, holds⟩
  | refused cannot => exact absurd can cannot

theorem SucceedsIff.congr {after : α → s → Prop} {other : Prop}
    (succeeds : SucceedsIff possible before action after) (same : possible ↔ other)
    : SucceedsIff other before action after :=
  propext same ▸ succeeds

/-- An action may start with one whose answer is known. -/
theorem Answers.succeedsIff {after : β → s → Prop} (first : Answers before action value)
    (rest : SucceedsIff possible before (next value) after)
    : SucceedsIff possible before (action >>= next) after := by
  intro state start
  obtain ⟨kept, run, holds⟩ := first.run_bind next start
  rw [run]
  exact rest kept holds

/-- What follows on an action that may fail yields something whenever it is reached. -/
theorem SucceedsIff.bind {middle : α → s → Prop} {after : β → s → Prop}
    (first : SucceedsIff possible before action middle)
    (rest : ∀ value, Yields (middle value) (next value) after)
    : SucceedsIff possible before (action >>= next) after := by
  intro state start
  have resolves := first state start
  change Resolves possible before after
    (ExceptT.bindCont next (action.run state).1 (action.run state).2)
  generalize action.run state = ended at resolves ⊢
  cases resolves with
  | refused cannot category kept => exact .refused cannot category kept
  | succeeded can holds =>
      obtain ⟨value, last, run, holds⟩ := rest _ _ holds
      change Resolves possible before after ((next _).run _)
      rw [run]
      exact .succeeded can holds

end

-----------------------------------------------------------------------------------------
-- Stores
-----------------------------------------------------------------------------------------

/-- In a state with (before) a store answers reads as the contents do, and keeps (before). -/
def Store.Mirrors {σ : Type} (store : Store σ) (db : Database) (before : σ → Prop) : Prop :=
  ∀ call reply, Database.serve call db = (.ok reply, db)
    → ∀ state, before state → ∃ next, store.serve call state = (.ok reply, next) ∧ before next

/-- Contents are asked directly. -/
theorem Database.mirrors_self (db : Database)
    : Database.store.Mirrors db (· = db) := by
  rintro call reply served _ rfl
  exact ⟨_, served, rfl⟩

/-- Contents are asked through a connection that reaches them. -/
theorem Server.mirrors (name : String) (connection : Connection) (db : Database)
    : (Server.store connection).Mirrors db (Server.Reaches · name connection db) := by
  intro call reply served server reaches
  obtain ⟨answer, reached⟩ := reaches.serve call
  rw [served] at answer reached
  exact ⟨_, Prod.ext answer rfl, reached⟩

/-- A preparation that works on a store in a state with (before). -/
def Preparation.On {σ γ : Type} (before : σ → Prop) (p : Preparation σ γ) : Prop := before p.store

section

variable {σ γ α : Type} {store : Store σ} {db : Database} {before : σ → Prop}

theorem Store.Mirrors.request (mirrors : store.Mirrors db before) {call : Call} {reply : call.Reply}
    (served : Database.serve call db = (.ok reply, db))
    : Answers before (store.request call) reply := by
  intro state start
  obtain ⟨next, answer, kept⟩ := mirrors call reply served state start
  refine ⟨next, ?_, kept⟩
  change (((store.serve call state).1.mapError BenchError.store), (store.serve call state).2) = _
  rw [answer]
  rfl

theorem Store.Mirrors.existingTypes (mirrors : store.Mirrors db before) (kind : Kind)
    : Answers before (store.existingTypes kind) (db.typesOf kind) :=
  mirrors.request rfl

theorem Store.Mirrors.existingNodes (mirrors : store.Mirrors db before) (kind : Kind)
    : Answers before (store.existingNodes kind) (db.nodesOf kind) :=
  mirrors.request rfl

theorem PrepareM.run_onStore {action : BenchM σ α} {value : α} {state next : σ}
    (run : action.run state = (.ok value, next)) (source : γ) (notes : List Note)
    : (PrepareM.onStore action).run { store := state, source, notes }
        = (.ok value, { store := next, source, notes }) := by
  change (((action.run state).1, { store := (action.run state).2, source, notes })
    : Except BenchError α × Preparation σ γ) = _
  rw [run]

/-- A known answer of the store is one of the preparation. -/
theorem Answers.onStore {action : BenchM σ α} {value : α} (answers : Answers before action value)
    : Answers (Preparation.On before) (PrepareM.onStore action : PrepareM σ γ α) value := by
  intro p start
  obtain ⟨store, answer, kept⟩ := answers p.store start
  exact ⟨{ p with store }, PrepareM.run_onStore answer p.source p.notes, kept⟩

end

-----------------------------------------------------------------------------------------
-- Draws
-----------------------------------------------------------------------------------------

/-- Whatever words a source gives, something is drawn, and it is as claimed. -/
def Gives {γ α : Type} (action : DrawM γ α) (after : α → Prop) : Prop :=
  Yields (fun _ => True) action fun value _ => after value

/-- Whatever words a source gives, something is drawn exactly if (possible), as claimed. -/
def GivesIff {γ α : Type} (possible : Prop) (action : DrawM γ α) (after : α → Prop) : Prop :=
  SucceedsIff possible (fun _ => True) action fun value _ => after value

section

variable {σ γ α β : Type} {after : α → Prop} {action : DrawM γ α} {before : σ → Prop}
  {possible : Prop}

theorem Gives.pure {value : α} (holds : after value)
    : Gives (pure value : DrawM γ α) after :=
  Yields.pure fun _ _ => holds

theorem Gives.bind {next : α → DrawM γ β} {claim : β → Prop} (first : Gives action after)
    (rest : ∀ value, after value → Gives (next value) claim)
    : Gives (action >>= next) claim :=
  Yields.bind first fun value state holds => rest value holds state trivial

/-- A result that is at hand takes part in draws. -/
theorem Gives.lift {result : Except BenchError α} {value : α} (made : result = .ok value)
    : Gives (liftM result : DrawM γ α) (· = value) := by
  subst made
  exact fun state _ => ⟨value, state, rfl, rfl⟩

theorem GivesIff.gives (gives : GivesIff possible action after) (can : possible)
    : Gives action after :=
  SucceedsIff.yields gives can

theorem GivesIff.bind {next : α → DrawM γ β} {claim : β → Prop}
    (first : GivesIff possible action after)
    (rest : ∀ value, after value → Gives (next value) claim)
    : GivesIff possible (action >>= next) claim :=
  SucceedsIff.bind first fun value state holds => rest value holds state trivial

theorem PrepareM.run_onSource {value : α} {source next : γ}
    (run : action.run source = (.ok value, next)) (state : σ) (notes : List Note)
    : (PrepareM.onSource action).run { store := state, source, notes }
        = (.ok value, { store := state, source := next, notes }) := by
  change (((action.run source).1, { store := state, source := (action.run source).2, notes })
    : Except BenchError α × Preparation σ γ) = _
  rw [run]

/-- What is drawn for a preparation is as claimed, and its store stays as it is. -/
theorem Gives.onSource (gives : Gives action after)
    : Yields (Preparation.On before) (PrepareM.onSource action : PrepareM σ γ α)
        fun value p => after value ∧ p.On before := by
  intro p start
  obtain ⟨value, source, run, holds⟩ := gives p.source trivial
  exact ⟨value, { p with source }, PrepareM.run_onSource run p.store p.notes, holds, start⟩

theorem GivesIff.onSource (gives : GivesIff possible action after)
    : SucceedsIff possible (Preparation.On before) (PrepareM.onSource action : PrepareM σ γ α)
        fun value p => after value ∧ p.On before := by
  intro p start
  have resolves := gives p.source trivial
  change Resolves possible _ _ (((action.run p.source).1,
    { p with source := (action.run p.source).2 }) : Except BenchError α × Preparation σ γ)
  generalize action.run p.source = ended at resolves ⊢
  cases resolves with
  | succeeded can holds => exact .succeeded can ⟨holds, start⟩
  | refused cannot category => exact .refused cannot category start

theorem DrawM.run_draw (f : γ → α × γ) (g : γ)
    : (DrawM.draw f).run g = (.ok (f g).1, (f g).2) :=
  rfl

/-- What is drawn comes from some state of the source. -/
theorem Gives.drawn (f : γ → α × γ)
    : Gives (DrawM.draw f) fun value => ∃ g, (f g).1 = value :=
  fun g _ => ⟨(f g).1, (f g).2, rfl, g, rfl⟩

variable [WordSource γ] {items : List α}

theorem Gives.choose (held : items ≠ [])
    : Gives (DrawM.choose items : DrawM γ α) (· ∈ items) := by
  intro g _
  obtain ⟨item, member, drawn⟩ := Draw.element_mem held g
  refine ⟨item, (Draw.element items g).2, ?_, member⟩
  change (((Draw.element items g).1.elim (.error .nothingToDraw) .ok : Except BenchError α),
    (Draw.element items g).2) = _
  rw [drawn]
  rfl

/-- An element of a list that is not empty is drawn, and the others are left in some order. -/
theorem Gives.chooseAndRemove (held : items ≠ [])
    : Gives (DrawM.chooseAndRemove items : DrawM γ (α × List α)) fun drawn =>
        (drawn.1 :: drawn.2).Perm items := by
  intro g _
  obtain ⟨item, rest, drawn, perm⟩ := Draw.removed_perm held g
  refine ⟨(item, rest), (Draw.removed items g).2, ?_, perm⟩
  change (((Draw.removed items g).1.elim (.error .nothingToDraw) .ok
    : Except BenchError (α × List α)), (Draw.removed items g).2) = _
  rw [drawn]
  rfl

end

-----------------------------------------------------------------------------------------
-- Preparations
-----------------------------------------------------------------------------------------

/-- How a preparation ends that succeeds exactly if (possible): with items as claimed, or else with
an error and no word about the items. The store keeps (before).
-/
inductive GeneratedWorkload.Prepares {κ γ σ : Type} (possible : Prop) (claim : List WorkItem → Prop)
    (before : σ → Prop) (workload : GeneratedWorkload κ γ)
    : (Except BenchError Unit × List Note) × GeneratedWorkload κ γ × σ → Prop
  | succeeded {notes next state} (can : possible) (prepared : next.isPrepared = true)
    (holds : claim next.items) (kept : before state)
    : Prepares possible claim before workload ((.ok (), notes), next, state)
  | refused {error notes next state} (cannot : ¬possible)
    (same : next.isPrepared = workload.isPrepared) (kept : before state)
    : Prepares possible claim before workload ((.error error, notes), next, state)

namespace GeneratedWorkload.Prepares

variable {κ γ σ : Type} {possible : Prop} {claim : List WorkItem → Prop} {before : σ → Prop}
  {workload : GeneratedWorkload κ γ}
  {ended : (Except BenchError Unit × List Note) × GeneratedWorkload κ γ × σ}

theorem kept (prepares : workload.Prepares possible claim before ended)
    : before ended.2.2 := by
  cases prepares with
  | succeeded _ _ _ kept => exact kept
  | refused _ _ kept => exact kept

theorem ok_iff (prepares : workload.Prepares possible claim before ended)
    : ended.1.1 = .ok () ↔ possible := by
  cases prepares with
  | succeeded can => exact ⟨fun _ => can, fun _ => rfl⟩
  | refused cannot => exact ⟨fun succeeded => (nomatch succeeded), fun can => absurd can cannot⟩

theorem items_of_ok (prepares : workload.Prepares possible claim before ended)
    (succeeded : ended.1.1 = .ok ())
    : claim ended.2.1.items := by
  cases prepares with
  | succeeded _ _ holds => exact holds
  | refused => cases succeeded

end GeneratedWorkload.Prepares

/-- A workload with operations is prepared if its generator synthesizes an item for each. -/
theorem GeneratedWorkload.prepares {κ γ σ : Type} [Generator κ] [WordSource γ]
    {workload : GeneratedWorkload κ γ} {store : Store σ} {state : σ} {possible : Prop}
    {claim : List WorkItem → Prop} {before : σ → Prop} (positive : 0 < workload.numOperations)
    (generates
      : SucceedsIff possible (Preparation.On before)
          (Generator.generate workload.generator store workload.numOperations : PrepareM σ γ _)
          fun items p => (items.length = workload.numOperations ∧ claim items) ∧ p.On before)
    (start : before state)
    : workload.Prepares possible claim before (workload.prepare store state) := by
  have resolves := generates { store := state, source := workload.source, notes := [] } start
  unfold prepare
  rw [if_neg (Nat.ne_of_gt positive)]
  generalize (Generator.generate workload.generator store workload.numOperations).run
    { store := state, source := workload.source, notes := [] : Preparation σ γ } = ended
    at resolves ⊢
  cases resolves with
  | refused cannot _ kept => exact .refused cannot rfl kept
  | succeeded can holds =>
      obtain ⟨⟨length, holds⟩, kept⟩ := holds
      dsimp only
      rw [if_pos length]
      exact .succeeded can rfl holds kept

end LineageLoad
