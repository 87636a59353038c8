import LineageLoad.Proofs.Workload.Preparation
import LineageLoad.Proofs.Workload.Trials

/-!
Preparations on contents that fail at any call. Rows that exist stay as they are. Loads of updates
try to make up for missing rows, and succeed if all reads were answered and enough rows are there.
-/

namespace LineageLoad

-----------------------------------------------------------------------------------------
-- Rows that are made up
-----------------------------------------------------------------------------------------

/-- The number of rows that a load of updates works on; the other loads have none. -/
def Load.numRows (load : Load Sampler) (db : Database) : Nat :=
  match load with
  | fillTypes kind true _ => (db.typesOf kind).length
  | fillNodes kind true .. => (db.nodesOf kind).length
  | _ => 0

/-- Rows of the kind that a load updates are added, (made) of them, and nothing else changes; other
loads add none.
-/
def Load.Gains (load : Load Sampler) (made : Nat) (before after : Database) : Prop :=
  match load with
  | fillTypes kind true _ => before.TypesGrow Eq kind made after
  | fillNodes kind true .. => before.NodesGrow Eq kind made after
  | _ => made = 0 ∧ after = before

/-- The calls that make up for one missing row of a load of updates. -/
inductive Load.MakesUp : Load Sampler → Call → Prop
  | type {kind numProperties type} (unnumbered : type.id = none)
    : MakesUp (.fillTypes kind true numProperties) (.putType kind type false)
  | node {kind numProperties stringBytes node} (unnumbered : node.id = none)
    : MakesUp (.fillNodes kind true numProperties stringBytes) (.putNodes kind [node])

/-- Items that make up for (count) rows of a load of updates. -/
structure Load.MakeUps (load : Load Sampler) (count : Nat) (items : List WorkItem) : Prop where
  length : items.length = count
  makeUps : ∀ item ∈ items, load.MakesUp item.call

section

variable {load : Load Sampler} {made more : Nat} {before middle after : Database}

theorem Load.MakeUps.nil
    : load.MakeUps 0 [] :=
  ⟨rfl, List.forall_mem_nil _⟩

theorem Load.MakeUps.cons {item : WorkItem} {rest : List WorkItem}
    (first : load.MakesUp item.call) (others : load.MakeUps made rest)
    : load.MakeUps (made + 1) (item :: rest) :=
  ⟨congrArg Nat.succ others.length, List.forall_mem_cons.mpr ⟨first, others.makeUps⟩⟩

theorem Load.Gains.refl (load : Load Sampler) (db : Database)
    : load.Gains 0 db db := by
  cases load with
  | fillTypes kind update numProperties => cases update with
    | false => exact ⟨rfl, rfl⟩
    | true => exact Load.Changes.refl (.fillTypes kind false numProperties) db
  | fillNodes kind update numProperties stringBytes => cases update with
    | false => exact ⟨rfl, rfl⟩
    | true => exact Load.Changes.refl (.fillNodes kind false numProperties stringBytes) db
  | _ => exact ⟨rfl, rfl⟩

theorem Load.Gains.trans (sooner : load.Gains made before middle)
    (later : load.Gains more middle after)
    : load.Gains (made + more) before after := by
  cases load with
  | fillTypes kind update => cases update with
    | false => exact ⟨by rw [sooner.1, later.1], later.2.trans sooner.2⟩
    | true => exact Database.TypesGrow.trans (fun again first => again.trans first) sooner later
  | fillNodes kind update => cases update with
    | false => exact ⟨by rw [sooner.1, later.1], later.2.trans sooner.2⟩
    | true => exact Database.NodesGrow.trans (fun again first => again.trans first) sooner later
  | _ => exact ⟨by rw [sooner.1, later.1], later.2.trans sooner.2⟩

theorem Load.Gains.remains (gains : load.Gains made before after)
    : before.Remains after := by
  cases load with
  | fillTypes kind update => cases update with
    | false => exact gains.2 ▸ .refl before
    | true => exact Database.TypesGrow.remains gains
  | fillNodes kind update => cases update with
    | false => exact gains.2 ▸ .refl before
    | true => exact Database.NodesGrow.remains gains
  | _ => exact gains.2 ▸ .refl before

end

section

variable {load : Load Sampler} {db next : Database} {kind : Kind} {call : Call}

/-- A type without an id that may not add properties is new, or it is there already. -/
theorem Database.Sound.typesGrow_of_putType (sound : db.Sound) {type : EntityType} {id : EntityId}
    (unnumbered : type.id = none) (stored : db.putType kind type false = .ok (id, next))
    : next = db ∨ db.TypesGrow Eq kind 1 next := by
  obtain ⟨named, _⟩ := putType_eq_ok stored
  cases entry : db.typeEntry? kind type.name with
  | none =>
      obtain ⟨reply, later, served, grows, _⟩ := sound.serve_newType unnumbered named entry
      cases stored.symm.trans (of_commit_eq_ok served)
      exact .inr grows
  | some row =>
      simp only [putType, named, if_false, entry] at stored
      split at stored
      · cases stored
      · split at stored
        · cases stored
        · cases stored
          exact .inl rfl

/-- An attempt to make up for a row adds one or none, by the two kinds of rows. -/
theorem Load.MakesUp.gains (makesUp : load.MakesUp call) (sound : db.Sound)
    {reply : Except StoreError call.Reply} (attempts : db.Attempts call reply next)
    : ∃ made ≤ 1, load.Gains made db next := by
  cases attempts with
  | refused => exact ⟨0, Nat.zero_le 1, .refl load db⟩
  | served served =>
      cases makesUp with
      | type unnumbered =>
          rcases sound.typesGrow_of_putType unnumbered (Database.of_commit_eq_ok served)
            with rfl | grows
          · exact ⟨0, Nat.zero_le 1, .refl _ next⟩
          · exact ⟨1, Nat.le_refl 1, grows⟩
      | node unnumbered =>
          obtain ⟨accepts, _, _, rfl⟩ :=
            Database.putNodes_eq_ok_iff.mp (Database.of_commit_eq_ok served)
          exact ⟨1, Nat.le_refl 1, sound.nodesGrow_new unnumbered⟩

end

-----------------------------------------------------------------------------------------
-- Trials
-----------------------------------------------------------------------------------------

/-- Contents that may fail, and what they answered. -/
abbrev Trial := Database × List Answer

/-- What a preparation did that began with the contents (before): it asked for (limit) rows at most
to be made up and wrote nothing else, and some of these rows are there now.
-/
structure Load.Tried (load : Load Sampler) (before : Database) (limit : Nat) (trial : Trial)
    : Prop where
  sound : trial.1.Sound
  gains : ∃ made ≤ limit, load.Gains made before trial.1
  writes : trial.2.countP (·.1.isWrite) ≤ limit
  makeUps : ∀ answer ∈ trial.2, answer.1.isWrite = true → load.MakesUp answer.1

/-- A preparation goes on with these contents, since all its reads were answered. -/
structure Load.Stands (load : Load Sampler) (before : Database) (limit : Nat) (db : Database)
    (trial : Trial) : Prop where
  contents : trial.1 = db
  tried : load.Tried before limit trial
  reads : ReadsAnswered trial.2

/-- A preparation of updates fails for a read that was not answered or for want of (count) rows. -/
structure Load.Stops (load : Load Sampler) (before : Database) (limit count : Nat) (trial : Trial)
    : Prop where
  tried : load.Tried before limit trial
  cause : load.isUpdating = true → ReadsAnswered trial.2 → load.numRows trial.1 < count

/-- A preparation of updates that succeeds has (count) items, for as many rows. -/
structure Load.Completes (load : Load Sampler) (before : Database) (limit count : Nat)
    (items : List WorkItem) (trial : Trial) : Prop where
  tried : load.Tried before limit trial
  enough : load.isUpdating = true →
    ReadsAnswered trial.2 ∧ count ≤ load.numRows trial.1 ∧ items.length = count

section

variable {load : Load Sampler} {before db : Database} {limit count : Nat} {trial : Trial}
  {answers : List Answer} {call : Call} {reply : Except StoreError call.Reply}

theorem readsAnswered_concat_iff
    : ReadsAnswered (answers ++ [⟨call, reply⟩])
      ↔ ReadsAnswered answers ∧ (call.isWrite = false → ∃ value, reply = .ok value) := by
  simp only [ReadsAnswered, List.forall_mem_append, List.forall_mem_singleton]

namespace Load.Tried

theorem refl (sound : db.Sound) (load : Load Sampler)
    : load.Tried db 0 (db, []) :=
  ⟨sound, ⟨0, Nat.le_refl 0, .refl load db⟩, Nat.le_refl 0, List.forall_mem_nil _⟩

theorem mono {more : Nat} (tried : load.Tried before limit trial) (within : limit ≤ more)
    : load.Tried before more trial := by
  obtain ⟨made, few, gains⟩ := tried.gains
  exact ⟨tried.sound, ⟨made, Nat.le_trans few within, gains⟩, Nat.le_trans tried.writes within,
    tried.makeUps⟩

theorem read (tried : load.Tried before limit (db, answers)) (reading : call.isWrite = false)
    : load.Tried before limit (db, answers ++ [⟨call, reply⟩]) where
  sound := tried.sound
  gains := tried.gains
  writes := by
    rw [List.countP_append, List.countP_singleton, if_neg (by simp [reading])]
    exact tried.writes
  makeUps := by
    refine List.forall_mem_append.mpr ⟨tried.makeUps, List.forall_mem_singleton.mpr ?_⟩
    intro writing
    cases writing.symm.trans reading

theorem makeUp {next : Database} (tried : load.Tried before limit (db, answers))
    (makesUp : load.MakesUp call) (attempts : db.Attempts call reply next)
    : load.Tried before (limit + 1) (next, answers ++ [⟨call, reply⟩]) where
  sound := tried.sound.attempts attempts
  gains := by
    obtain ⟨made, few, gains⟩ := tried.gains
    obtain ⟨more, once, further⟩ := makesUp.gains tried.sound attempts
    exact ⟨made + more, Nat.add_le_add few once, gains.trans further⟩
  writes := by
    rw [List.countP_append]
    exact Nat.add_le_add tried.writes List.countP_le_length
  makeUps :=
    List.forall_mem_append.mpr ⟨tried.makeUps, List.forall_mem_singleton.mpr fun _ => makesUp⟩

end Load.Tried

theorem Load.Stops.mono {more : Nat} (stops : load.Stops before limit count trial)
    (within : limit ≤ more)
    : load.Stops before more count trial :=
  ⟨stops.tried.mono within, stops.cause⟩

theorem Load.MakesUp.isWrite (makesUp : load.MakesUp call)
    : call.isWrite = true := by
  cases makesUp <;> rfl

variable {γ : Type} {kind : Kind} {fails : List Answer → Call → Option StoreError}

/-- Contents that fail keep what was tried while they are read. -/
theorem Load.tried_readsKeep (load : Load Sampler) (before : Database) (limit : Nat)
    (fails : List Answer → Call → Option StoreError)
    : (Database.store.withFailures fails).ReadsKeep (load.Tried before limit) := by
  rintro call reading ⟨contents, answers⟩ tried
  obtain ⟨reply, next, answered, attempts⟩ :=
    Database.serve_withFailures fails call contents answers
  obtain rfl := attempts.of_read reading
  rw [answered]
  exact tried.read reading

/-- A read answers what the contents say, or the preparation stops. -/
theorem Load.Stands.request (reading : call.isWrite = false)
    : Leads (load.Stands before limit db) ((Database.store.withFailures fails).request call)
        (fun reply trial => (Database.serve call db).1 = .ok reply
          ∧ load.Stands before limit db trial)
        (load.Stops before limit count) := by
  rintro ⟨contents, answers⟩ ⟨rfl, tried, reads⟩
  obtain ⟨reply, next, answered, attempts⟩ :=
    Database.serve_withFailures fails call contents answers
  obtain rfl := attempts.of_read reading
  change Leaves _ _ (((Database.store.withFailures fails).serve call (next, answers)).1.mapError
    BenchError.store, ((Database.store.withFailures fails).serve call (next, answers)).2)
  rw [answered]
  cases attempts with
  | refused =>
      refine .stopped ⟨tried.read reading, fun _ all => ?_⟩
      obtain ⟨_, impossible⟩ := (readsAnswered_concat_iff.mp all).2 reading
      cases impossible
  | served served =>
      refine .answered ⟨congrArg Prod.fst served, rfl, tried.read reading, ?_⟩
      exact readsAnswered_concat_iff.mpr ⟨reads, fun _ => ⟨_, rfl⟩⟩

theorem Load.Stands.existingTypes (kind : Kind)
    : Leads (Preparation.On (load.Stands before limit db))
        (PrepareM.onStore ((Database.store.withFailures fails).existingTypes kind)
          : PrepareM Trial γ _)
        (fun types p => types = db.typesOf kind ∧ p.On (load.Stands before limit db))
        (Preparation.On (load.Stops before limit count)) :=
  (Load.Stands.request rfl).onStore.weaken
    (fun _ _ ⟨answered, stands⟩ => ⟨(Except.ok.inj answered).symm, stands⟩) fun _ stops => stops

theorem Load.Stands.existingNodes (kind : Kind)
    : Leads (Preparation.On (load.Stands before limit db))
        (PrepareM.onStore ((Database.store.withFailures fails).existingNodes kind)
          : PrepareM Trial γ _)
        (fun nodes p => nodes = db.nodesOf kind ∧ p.On (load.Stands before limit db))
        (Preparation.On (load.Stops before limit count)) :=
  (Load.Stands.request rfl).onStore.weaken
    (fun _ _ ⟨answered, stands⟩ => ⟨(Except.ok.inj answered).symm, stands⟩) fun _ stops => stops

/-- A call that makes up for a row may be refused; the preparation goes on all the same. -/
theorem Load.MakesUp.issue (makesUp : load.MakesUp call) (failed : BenchError → Note)
    {stopped : Preparation Trial γ → Prop}
    : Leads (Preparation.On (load.Stands before limit db))
        (PrepareM.issue (Database.store.withFailures fails) failed call : PrepareM Trial γ Unit)
        (fun _ p => ∃ next, p.On (load.Stands before (limit + 1) next)) stopped := by
  rintro p ⟨contents, tried, reads⟩
  obtain ⟨reply, next, answered, attempts⟩ :=
    Database.serve_withFailures fails call p.store.1 p.store.2
  refine .answered ⟨next, ?_⟩
  change load.Stands before (limit + 1) next
    ((Database.store.withFailures fails).serve call p.store).2
  rw [answered]
  refine ⟨rfl, tried.makeUp makesUp attempts, readsAnswered_concat_iff.mpr ⟨reads, ?_⟩⟩
  intro reading
  cases makesUp.isWrite.symm.trans reading

/-- Rows that are missing are asked for one after the other, by induction on the items. -/
theorem Load.MakeUps.issue {items : List WorkItem} (makeUps : load.MakeUps count items)
    (failed : WorkItem → BenchError → Note) {stopped : Preparation Trial γ → Prop}
    : Leads (Preparation.On (load.Stands before limit db))
        (items.forM fun item =>
          (PrepareM.issue (Database.store.withFailures fails) (failed item) item.call
            : PrepareM Trial γ Unit))
        (fun _ p => ∃ next, p.On (load.Stands before (limit + count) next)) stopped := by
  induction items generalizing limit count db with
  | nil =>
      obtain ⟨rfl, _⟩ := makeUps
      exact .pure fun _ stands => ⟨db, stands⟩
  | cons item rest ih =>
      obtain ⟨rfl, makeUps⟩ := makeUps
      obtain ⟨first, others⟩ := List.forall_mem_cons.mp makeUps
      refine .bind (first.issue (failed item)) fun _ p ⟨next, stands⟩ => ?_
      rw [List.length_cons, Nat.add_comm rest.length, ← Nat.add_assoc]
      exact ih ⟨rfl, others⟩ p stands

end

end LineageLoad
