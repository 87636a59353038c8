import LineageLoad.Proofs.Workload.Attempts

/-!
Workloads are prepared on contents that fail at any call. Nothing that exists is touched, no more
rows are made up than are missing, and a workload is prepared either in full or not at all.
-/

namespace LineageLoad

variable {γ : Type} {before db : Database} {limit count : Nat} {kind : Kind}
  {numProperties stringBytes : Sampler} {fails : List Answer → Call → Option StoreError}

/-- What stops a preparation stops it as well where more rows could have been asked for. -/
theorem Leads.mono {load : Load Sampler} {α : Type} {action : PrepareM Trial γ α} {more : Nat}
    {start : Preparation Trial γ → Prop} {after : α → Preparation Trial γ → Prop}
    (leads : Leads start action after (Preparation.On (load.Stops before limit count)))
    (within : limit ≤ more)
    : Leads start action after (Preparation.On (load.Stops before more count)) :=
  leads.weaken (fun _ _ holds => holds) fun _ stops => stops.mono within

/-- Rows that are missing are asked for, and the preparation goes on with those that are made. -/
theorem Load.makeUp_stands {load : Load Sampler} {missing : Nat}
    {inserts : PrepareM Trial γ (List WorkItem)}
    (makeUps : Leads (Preparation.On (load.Stands db 0 db)) inserts
      (fun items p => load.MakeUps missing items ∧ p.On (load.Stands db 0 db))
      (Preparation.On (load.Stops db 0 count)))
    (note : Note) (failed : WorkItem → BenchError → Note)
    : Leads (Preparation.On (load.Stands db 0 db))
        (do
          PrepareM.note note
          let items ← inserts
          items.forM fun item =>
            PrepareM.issue (Database.store.withFailures fails) (failed item) item.call
          : PrepareM Trial γ Unit)
        (fun _ p => ∃ next, p.On (load.Stands db missing next))
        (Preparation.On (load.Stops db missing count)) := by
  refine .bind (note_leads _) fun _ => ?_
  refine .bind (makeUps.mono (Nat.zero_le _)) fun items p ⟨makeUps, stands⟩ => ?_
  refine (makeUps.issue failed).weaken (fun _ p => ?_) (fun _ stops => stops) p stands
  rw [Nat.zero_add]
  exact id

section

variable {load : Load Sampler} {α : Type} (rows : Database → List α)
  (items : List α → DrawM γ (List WorkItem)) (error : Nat → BenchError)

/-- With the rows at hand a load of updates needs as many of them as items, one for each. -/
theorem Load.Stands.updates (counted : load.numRows db = (rows db).length)
    (gives : ∀ rows, Gives (items rows) fun items => items.length = rows.length)
    : Leads (Preparation.On (load.Stands before limit db))
        (do
          if (rows db).length < count then throw (error (rows db).length)
          PrepareM.onSource (items ((rows db).take count))
          : PrepareM Trial γ _)
        (fun items => Preparation.On (load.Completes before limit count items))
        (Preparation.On (load.Stops before limit count)) := by
  refine .check (fun few p stands => ⟨stands.tried, fun _ _ => ?_⟩) fun enough => ?_
  · rw [stands.contents, counted]
    exact few
  · have enough := Nat.le_of_not_lt enough
    refine (gives _).onSource.leads.weaken (fun items p => ?_) fun _ stops => stops
    rintro ⟨length, stands⟩
    refine ⟨stands.tried, fun _ => ⟨stands.reads, ?_, ?_⟩⟩
    · rw [stands.contents, counted]
      exact enough
    · exact length.trans (List.length_take_of_le enough)

/-- A load of updates reads its rows, makes up for those that are missing and reads them again. What
it does with the rows is left open, but for the number of items.
-/
theorem Load.updates_completes (read : PrepareM Trial γ (List α))
    (makeUp : Nat → PrepareM Trial γ Unit)
    (counted : ∀ db, load.numRows db = (rows db).length)
    (reads : ∀ limit next, Leads (Preparation.On (load.Stands db limit next)) read
      (fun existing p => existing = rows next ∧ p.On (load.Stands db limit next))
      (Preparation.On (load.Stops db limit count)))
    (makesUp : (rows db).length < count → ∀ missing,
      Leads (Preparation.On (load.Stands db 0 db)) (makeUp missing)
        (fun _ p => ∃ next, p.On (load.Stands db missing next))
        (Preparation.On (load.Stops db missing count)))
    (gives : ∀ rows, Gives (items rows) fun items => items.length = rows.length)
    : Leads (Preparation.On (load.Stands db 0 db))
        (do
          let mut existing ← read
          if existing.length < count then
            makeUp (count - existing.length)
            existing ← read
          if existing.length < count then throw (error existing.length)
          PrepareM.onSource (items (existing.take count))
          : PrepareM Trial γ _)
        (fun items => Preparation.On (load.Completes db (count - (rows db).length) count items))
        (Preparation.On (load.Stops db (count - (rows db).length) count)) := by
  refine .bind ((reads 0 db).mono (Nat.zero_le _)) fun existing p ⟨same, stands⟩ => ?_
  subst same
  refine Leads.branch (fun few => ?_) (fun enough => ?_) p stands
  · refine .bind (makesUp few _) fun _ p ⟨next, stands⟩ => ?_
    refine Leads.bind (reads _ next) (fun again p => ?_) p stands
    rintro ⟨same, stands⟩
    subst same
    exact Load.Stands.updates rows items error (counted next) gives p stands
  · rw [Nat.sub_eq_zero_of_le (Nat.le_of_not_lt enough)]
    exact Load.Stands.updates rows items error (counted db) gives

end

variable [WordSource γ]

-----------------------------------------------------------------------------------------
-- Types
-----------------------------------------------------------------------------------------

namespace FillTypes

/-- By induction on the number of items. -/
theorem insertItems_makeUps (count next : Nat) (taken : List String)
    : Gives (insertItems kind numProperties count next taken : DrawM γ _)
        ((Load.fillTypes kind true numProperties).MakeUps count) := by
  induction count generalizing next taken with
  | zero => exact .pure .nil
  | succ count ih =>
      unfold insertItems
      dsimp only
      refine .bind (.drawn _) fun properties _ => ?_
      exact .bind (ih _ _) fun rest others => .pure (.cons (.type rfl) others)

/-- By induction on the types. -/
theorem length_updateItems (types : List EntityType)
    : Gives (updateItems kind numProperties types : DrawM γ _)
        fun items => items.length = types.length := by
  induction types with
  | nil => exact .pure rfl
  | cons type rest ih =>
      refine .bind (.drawn _) fun sampled _ => ?_
      exact .bind ih fun items length => .pure (congrArg Nat.succ length)

theorem totalTypes_leads {load : Load Sampler}
    : Leads (load.Stands before limit db) (Database.store.withFailures fails).totalTypes
        (fun _ => load.Stands before limit db) (load.Stops before limit count) := by
  have asked (kind : Kind)
      : Leads (load.Stands before limit db) ((Database.store.withFailures fails).existingTypes kind)
          (fun _ => load.Stands before limit db) (load.Stops before limit count) :=
    (Load.Stands.request rfl).weaken (fun _ _ => (·.2)) fun _ stops => stops
  exact .bind (asked _) fun _ => .bind (asked _) fun _ => .bind (asked _) fun _ =>
    .pure fun _ stands => stands

theorem inserts_makeUps (missing : Nat)
    : Leads (Preparation.On ((Load.fillTypes kind true numProperties).Stands before limit db))
        (inserts kind numProperties (Database.store.withFailures fails) missing
          : PrepareM Trial γ _)
        (fun items p => (Load.fillTypes kind true numProperties).MakeUps missing items
          ∧ p.On ((Load.fillTypes kind true numProperties).Stands before limit db))
        (Preparation.On ((Load.fillTypes kind true numProperties).Stops before limit count)) := by
  refine .bind (Load.Stands.existingTypes _) fun existing p ⟨_, stands⟩ => ?_
  refine Leads.bind totalTypes_leads.onStore (fun total => ?_) p stands
  exact (insertItems_makeUps missing total _).onSource.leads

theorem updates_completes (count : Nat)
    : Leads (Preparation.On ((Load.fillTypes kind true numProperties).Stands db 0 db))
        (updates kind numProperties (Database.store.withFailures fails) count : PrepareM Trial γ _)
        (fun items => Preparation.On ((Load.fillTypes kind true numProperties).Completes db
          (count - (db.typesOf kind).length) count items))
        (Preparation.On ((Load.fillTypes kind true numProperties).Stops db
          (count - (db.typesOf kind).length) count)) := by
  have made (missing : Nat)
      : Leads (Preparation.On ((Load.fillTypes kind true numProperties).Stands db 0 db))
          (makeUp kind numProperties (Database.store.withFailures fails) missing
            : PrepareM Trial γ Unit)
          (fun _ p => ∃ next,
            p.On ((Load.fillTypes kind true numProperties).Stands db missing next))
          (Preparation.On ((Load.fillTypes kind true numProperties).Stops db missing count)) :=
    Load.makeUp_stands (inserts_makeUps missing) _ _
  exact Load.updates_completes (Database.typesOf · kind) (updateItems kind numProperties)
    (.tooFewTypes kind · count)
    (PrepareM.onStore ((Database.store.withFailures fails).existingTypes kind))
    (makeUp kind numProperties (Database.store.withFailures fails))
    (fun _ => rfl) (fun _ _ => Load.Stands.existingTypes kind) (fun _ => made) length_updateItems

end FillTypes

-----------------------------------------------------------------------------------------
-- Nodes
-----------------------------------------------------------------------------------------

namespace FillNodes

/-- By induction on the number of items. -/
theorem insertItems_makeUps {types : List (EntityId × EntityType)} (someType : types ≠ [])
    (count next : Nat) (taken : List (EntityId × String))
    : Gives (insertItems kind numProperties stringBytes types count next taken : DrawM γ _)
        ((Load.fillNodes kind true numProperties stringBytes).MakeUps count) := by
  induction count generalizing next taken with
  | zero => exact .pure .nil
  | succ count ih =>
      unfold insertItems
      refine .bind (.choose someType) fun drawn _ => ?_
      obtain ⟨typeId, type⟩ := drawn
      refine .bind (.drawn _) fun wanted _ => ?_
      refine .bind (.drawn _) fun properties _ => ?_
      refine .bind (.drawn _) fun custom _ => ?_
      exact .bind (ih _ _) fun rest others => .pure (.cons (.node rfl) others)

/-- By induction on the nodes. -/
theorem length_updateItems (nodes : List Node)
    : Gives (updateItems kind numProperties stringBytes nodes : DrawM γ _)
        fun items => items.length = nodes.length := by
  induction nodes with
  | nil => exact .pure rfl
  | cons node rest ih =>
      refine .bind (.drawn _) fun sampled _ => ?_
      refine .bind (.drawn _) fun customProperties _ => ?_
      exact .bind ih fun items length => .pure (congrArg Nat.succ length)

/-- Without a type there are no items, but then there are not enough nodes either. -/
theorem inserts_makeUps (few : (db.nodesOf kind).length < count) (missing : Nat)
    : Leads (Preparation.On
          ((Load.fillNodes kind true numProperties stringBytes).Stands before limit db))
        (inserts kind numProperties stringBytes (Database.store.withFailures fails) missing
          : PrepareM Trial γ _)
        (fun items p => (Load.fillNodes kind true numProperties stringBytes).MakeUps missing items
          ∧ p.On ((Load.fillNodes kind true numProperties stringBytes).Stands before limit db))
        (Preparation.On
          ((Load.fillNodes kind true numProperties stringBytes).Stops before limit count)) := by
  unfold inserts
  refine .bind (Load.Stands.existingTypes _) fun types p ⟨_, stands⟩ => ?_
  refine Leads.check (fun _ p stands => ⟨stands.tried, fun _ _ => stands.contents ▸ few⟩)
    (fun someType => ?_) p stands
  have someType := mt List.isEmpty_iff.mpr someType
  refine .bind (Load.Stands.existingNodes _) fun existing p ⟨_, stands⟩ => ?_
  exact (insertItems_makeUps someType missing _ _).onSource.leads p stands

theorem updates_completes (count : Nat)
    : Leads (Preparation.On ((Load.fillNodes kind true numProperties stringBytes).Stands db 0 db))
        (updates kind numProperties stringBytes (Database.store.withFailures fails) count
          : PrepareM Trial γ _)
        (fun items => Preparation.On ((Load.fillNodes kind true numProperties stringBytes).Completes
          db (count - (db.nodesOf kind).length) count items))
        (Preparation.On ((Load.fillNodes kind true numProperties stringBytes).Stops
          db (count - (db.nodesOf kind).length) count)) := by
  have made (few : (db.nodesOf kind).length < count) (missing : Nat)
      : Leads (Preparation.On ((Load.fillNodes kind true numProperties stringBytes).Stands db 0 db))
          (makeUp kind numProperties stringBytes (Database.store.withFailures fails) missing
            : PrepareM Trial γ Unit)
          (fun _ p => ∃ next,
            p.On ((Load.fillNodes kind true numProperties stringBytes).Stands db missing next))
          (Preparation.On
            ((Load.fillNodes kind true numProperties stringBytes).Stops db missing count)) :=
    Load.makeUp_stands (inserts_makeUps few missing) _ _
  exact Load.updates_completes (Database.nodesOf · kind)
    (updateItems kind numProperties stringBytes) (.tooFewNodes kind · count)
    (PrepareM.onStore ((Database.store.withFailures fails).existingNodes kind))
    (makeUp kind numProperties stringBytes (Database.store.withFailures fails))
    (fun _ => rfl) (fun _ _ => Load.Stands.existingNodes kind) made length_updateItems

end FillNodes

-----------------------------------------------------------------------------------------
-- Any load
-----------------------------------------------------------------------------------------

/-- A preparation of any load, by the kinds of load: those that do not update only read. -/
theorem Load.generate_completes (load : Load Sampler)
    (fails : List Answer → Call → Option StoreError) (count : Nat)
    : Leads (Preparation.On (load.Stands db 0 db))
        (load.generate (Database.store.withFailures fails) count : PrepareM Trial γ _)
        (fun items => Preparation.On
          (load.Completes db (load.missing count db) count items))
        (Preparation.On (load.Stops db (load.missing count db) count)) := by
  cases updating : load.isUpdating with
  | false =>
      have keeps := load.generate_keeps (γ := γ) (load.tried_readsKeep db 0 fails) updating count
      refine fun p stands => (keeps.weaken (fun items p => ?_) fun p => ?_) p stands.tried
      · exact fun tried => ⟨tried.mono (Nat.zero_le _), (nomatch updating.symm.trans ·)⟩
      · exact fun tried => ⟨tried.mono (Nat.zero_le _), (nomatch updating.symm.trans ·)⟩
  | true =>
      cases load with
      | fillTypes kind update =>
          cases updating
          exact FillTypes.updates_completes count
      | fillNodes kind update =>
          cases updating
          exact FillNodes.updates_completes count
      | _ => cases updating

namespace GeneratedWorkload

/-- How a preparation ends on contents that fail: with items for all operations, or with an error
and the workload as it was but for its draws.
-/
inductive Survives (workload : GeneratedWorkload (Load Sampler) γ) (before : Database)
    : (Except BenchError Unit × List Note) × GeneratedWorkload (Load Sampler) γ × Trial → Prop
  | prepared {notes next trial} (length : next.items.length = workload.numOperations)
    (ready : next.isPrepared = true)
    (completes : workload.generator.Completes before
      (workload.generator.missing workload.numOperations before) workload.numOperations
      next.items trial)
    : Survives workload before ((.ok (), notes), next, trial)
  | failed {error notes next trial} (items : next.items = workload.items)
    (flag : next.isPrepared = workload.isPrepared)
    (stops : workload.generator.Stops before
      (workload.generator.missing workload.numOperations before) workload.numOperations trial)
    : Survives workload before ((.error error, notes), next, trial)

theorem prepare_survives (workload : GeneratedWorkload (Load Sampler) γ) (sound : db.Sound)
    : workload.Survives db
        (workload.prepare (Database.store.withFailures fails) (db, [])) := by
  have tried := Load.Tried.refl sound workload.generator
  unfold prepare
  -- Without operations nothing is asked, and no row can be missing.
  by_cases empty : workload.numOperations = 0
  · rw [if_pos empty]
    refine .prepared empty.symm rfl ⟨tried.mono (Nat.zero_le _), fun _ => ⟨?_, ?_, empty.symm⟩⟩
    · exact List.forall_mem_nil _
    · exact empty ▸ Nat.zero_le _
  · rw [if_neg empty]
    have ends := workload.generator.generate_completes fails workload.numOperations
      { store := (db, []), source := workload.source, notes := [] }
      ⟨rfl, tried, List.forall_mem_nil _⟩
    change Leaves _ _ ((Generator.generate workload.generator
      (Database.store.withFailures fails) workload.numOperations).run _) at ends
    generalize (Generator.generate workload.generator (Database.store.withFailures fails)
      workload.numOperations).run
        { store := (db, []), source := workload.source, notes := [] : Preparation Trial γ } = ended
      at ends ⊢
    cases ends with
    | stopped stops => exact .failed rfl rfl stops
    | @answered items p completes =>
        dsimp only
        split
        · next length => exact .prepared length rfl completes
        · next short =>
            refine .failed rfl rfl ⟨completes.tried, fun updating _ => ?_⟩
            exact absurd (completes.enough updating).2.2 short

/-- A preparation on contents that any calls have led to and that refuse any of its calls. Types,
nodes, events and links stay as they are. Only a load of updates writes, and only if rows are
missing: it asks for new rows of its kind, as many as are missing or fewer, and some of them are
there afterwards. A preparation that fails leaves the items and the flag as they were, and one that
succeeds leaves an item for each operation. One of updates succeeds exactly if all of its reads were
answered and there are enough rows in the end, whatever became of the rows it asked for.
-/
theorem prepare_withFailures (workload : GeneratedWorkload (Load Sampler) γ) (calls : List Call)
    (fails : List Answer → Call → Option StoreError)
    : let db := Database.empty.serveAll calls
      let load := workload.generator
      let count := workload.numOperations
      let ended := workload.prepare (Database.store.withFailures fails) (db, [])
      let result := ended.1.1
      let prepared := ended.2.1
      let later := ended.2.2.1
      let answers := ended.2.2.2
      db.Remains later
      ∧ ((∃ made ≤ load.missing count db, load.Gains made db later)
        ∧ answers.countP (·.1.isWrite) ≤ load.missing count db
        ∧ ∀ answer ∈ answers, answer.1.isWrite = true → load.MakesUp answer.1)
      ∧ (∀ error, result = .error error →
          prepared.items = workload.items ∧ prepared.isPrepared = workload.isPrepared)
      ∧ (result = .ok () → prepared.items.length = count ∧ prepared.isPrepared = true)
      ∧ (load.isUpdating = true →
          (result = .ok () ↔ ReadsAnswered answers ∧ count ≤ load.numRows later)) := by
  intro db load count ended result prepared later answers
  have survives : workload.Survives db ended :=
    workload.prepare_survives (Database.empty_sound.serveAll calls)
  clear_value ended
  cases survives with
  | prepared length ready completes =>
      obtain ⟨made, few, gains⟩ := completes.tried.gains
      refine ⟨gains.remains, ⟨⟨made, few, gains⟩, completes.tried.writes, completes.tried.makeUps⟩,
        fun _ failed => (nomatch failed), fun _ => ⟨length, ready⟩, fun updating => ?_⟩
      obtain ⟨reads, enough, _⟩ := completes.enough updating
      exact ⟨fun _ => ⟨reads, enough⟩, fun _ => rfl⟩
  | failed items flag stops =>
      obtain ⟨made, few, gains⟩ := stops.tried.gains
      refine ⟨gains.remains, ⟨⟨made, few, gains⟩, stops.tried.writes, stops.tried.makeUps⟩,
        fun _ _ => ⟨items, flag⟩, (nomatch ·), fun updating => ⟨(nomatch ·), ?_⟩⟩
      rintro ⟨reads, enough⟩
      exact absurd (stops.cause updating reads) (Nat.not_lt_of_le enough)

/-- The first of two missing types is refused, so that one is there in the end, too few to update.
-/
example
    : let workload : GeneratedWorkload (Load Sampler) (Nat → UInt64) :=
        { generator := .fillTypes .artifact true ⟨1, 1, Nat.le_refl 1⟩, numOperations := 2,
          source := fun _ => 0 }
      let fails (answers : List Answer) (call : Call) : Option StoreError :=
        if call.isWrite && answers.all (!·.1.isWrite) then some (.injected .unavailable) else none
      let ended := workload.prepare (Database.store.withFailures fails) (.empty, [])
      ended.1.1 = .error (.tooFewTypes .artifact 1 2) ∧ ended.2.2.2.countP (·.1.isWrite) = 2 := by
  decide

end GeneratedWorkload

end LineageLoad
