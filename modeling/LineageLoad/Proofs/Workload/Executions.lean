import LineageLoad.Proofs.Runner.Replays

/-!
The items of a workload that are executed in the order of their indices. If their requests are open
when the first one is executed, then each of them succeeds, and together they leave what their calls
do.
-/

namespace LineageLoad

/-- Requests stay open while those before them are served, by induction on these. -/
theorem Load.Pending.serveAll_append {load : Load Sampler} {db : Database}
    {before after : List Call} (pending : load.Pending db (before ++ after)) (sound : db.Sound)
    : load.Pending (db.serveAll before) after := by
  induction before generalizing db with
  | nil => exact pending
  | cons call rest ih => exact ih (pending.serve_head sound).2 (sound.serve call)

/-- Each of the requests is accepted when its turn comes. -/
theorem Load.Pending.serve_inOrder {load : Load Sampler} {db : Database} {calls : List Call}
    (pending : load.Pending db calls) (sound : db.Sound) {index : Nat} {call : Call}
    (found : calls[index]? = some call)
    : ∃ reply next, Database.serve call (db.serveAll (calls.take index)) = (.ok reply, next) := by
  have split : calls.take index ++ call :: calls.drop (index + 1) = calls := by
    obtain ⟨inside, rfl⟩ := List.getElem?_eq_some_iff.mp found
    rw [List.getElem_cons_drop inside, List.take_append_drop]
  rw [← split] at pending
  have turn : load.Pending _ ([] ++ call :: calls.drop (index + 1)) :=
    pending.serveAll_append sound
  obtain ⟨reply, next, served, _⟩ := turn.serve (sound.serveAll _)
  exact ⟨reply, next, served⟩

/-- Calls that are issued one after the other leave what they would if they were asked directly, by
induction on the items.
-/
theorem run_forM_issue (items : List WorkItem) (failed : WorkItem → BenchError → Note)
    (db : Database) {γ : Type} (source : γ) (notes : List Note)
    : ∃ after,
        (items.forM fun item =>
            (PrepareM.issue Database.store (failed item) item.call : PrepareM Database γ Unit)).run
          { store := db, source, notes }
        = (.ok (), { store := db.serveAll (items.map (·.call)), source, notes := after }) := by
  induction items generalizing db notes with
  | nil => exact ⟨notes, rfl⟩
  | cons item rest ih =>
      obtain ⟨next, noted⟩ : ∃ next,
          (PrepareM.issue Database.store (failed item) item.call : PrepareM Database γ Unit).run
            { store := db, source, notes }
          = (.ok (), { store := (Database.serve item.call db).2, source, notes := next }) :=
        ⟨_, rfl⟩
      obtain ⟨after, run⟩ := ih (Database.serve item.call db).2 next
      exact ⟨after, (run_bind_of_ok noted _).trans run⟩

namespace GeneratedWorkload

variable {κ γ : Type} [Generator κ] [WordSource γ] {workload : GeneratedWorkload κ γ}
  {load : Load Sampler} {db : Database}

/-- Executing the items up to an index leaves what their calls do. -/
theorem executeAll_range (prepared : workload.isPrepared = true) (count : Nat)
    : workload.executeAll Database.store (List.range count) db
        = db.serveAll ((workload.items.map (·.call)).take count) := by
  rw [executeAll_eq prepared, callsAt, filterMap_getElem?_range]

/-- Every item succeeds when its turn comes. -/
theorem execute_inOrder (prepared : workload.isPrepared = true) (sound : db.Sound)
    (pending : load.Pending db (workload.items.map (·.call))) {index : Nat} {item : WorkItem}
    (found : workload.items[index]? = some item)
    : (workload.execute index Database.store
        (workload.executeAll Database.store (List.range index) db)).1 = .ok item.bytes := by
  have listed : (workload.items.map (·.call))[index]? = some item.call := by
    rw [List.getElem?_map, found]
    rfl
  obtain ⟨reply, next, served⟩ := pending.serve_inOrder sound listed
  rw [executeAll_range prepared]
  unfold execute
  rw [prepared, found, if_neg (by decide)]
  change ((Database.serve item.call _).1.mapError BenchError.store).map _ = _
  rw [served]
  rfl

/-- A workload is prepared with what its generator synthesizes, if that is an item for each
operation. Without operations the generator is not asked, and then it must not have done anything.
-/
theorem prepare_of_run {σ : Type} {store : Store σ} {state : σ} {items : List WorkItem}
    {p : Preparation σ γ}
    (run
      : (Generator.generate workload.generator store workload.numOperations).run
          { store := state, source := workload.source, notes := [] } = (.ok items, p))
    (length : items.length = workload.numOperations)
    (idle : workload.numOperations = 0 → p.store = state ∧ p.notes = [])
    : ∃ next : GeneratedWorkload κ γ,
        workload.prepare store state = ((.ok (), p.notes), next, p.store)
          ∧ next.items = items ∧ next.isPrepared = true := by
  unfold prepare
  by_cases none : workload.numOperations = 0
  · obtain ⟨same, quiet⟩ := idle none
    rw [if_pos none, same, quiet]
    exact ⟨_, rfl, (List.length_eq_zero_iff.mp (length.trans none)).symm, rfl⟩
  · rw [if_neg none, run]
    dsimp only
    rw [if_pos length]
    exact ⟨_, rfl, rfl, rfl⟩

/-- A preparation fails with the error of its generator, and then holds what it held. -/
theorem prepare_of_failure (workload : GeneratedWorkload κ γ) {σ : Type} (store : Store σ)
    (state : σ) {error : BenchError} {p : Preparation σ γ} (positive : 0 < workload.numOperations)
    (run
      : (Generator.generate workload.generator store workload.numOperations).run
          { store := state, source := workload.source, notes := [] } = (.error error, p))
    : workload.prepare store state
        = ((.error error, p.notes), { workload with source := p.source }, p.store) := by
  unfold prepare
  rw [if_neg (Nat.ne_of_gt positive), run]

/-- A preparation leaves the store as its generator does, or it does not ask it. -/
theorem prepare_store {σ : Type} (workload : GeneratedWorkload κ γ) (store : Store σ) (state : σ)
    : (workload.prepare store state).2.2 = state
      ∨ (workload.prepare store state).2.2
        = ((Generator.generate workload.generator store workload.numOperations).run
            ⟨state, workload.source, []⟩).2.store := by
  unfold prepare
  split
  · exact .inl rfl
  · right
    generalize (Generator.generate workload.generator store workload.numOperations).run
      (⟨state, workload.source, []⟩ : Preparation σ γ) = ended
    obtain ⟨result, p⟩ := ended
    cases result with
    | error error => rfl
    | ok items =>
        dsimp only
        split <;> rfl

/-- A preparation that succeeds holds an item for each operation. Those are what its generator
synthesized, or there are no operations.
-/
theorem of_prepare_ok (workload : GeneratedWorkload κ γ) {σ : Type} (store : Store σ) (state : σ)
    (succeeded : (workload.prepare store state).1.1 = .ok ())
    : let prepared := workload.prepare store state
      prepared.2.1.isPrepared = true
        ∧ prepared.2.1.items.length = workload.numOperations
        ∧ (prepared.2.1.items = [] ∧ prepared.2.2 = state
          ∨ ∃ p, (Generator.generate workload.generator store workload.numOperations).run
                { store := state, source := workload.source, notes := [] }
              = (.ok prepared.2.1.items, p)
            ∧ prepared.2.2 = p.store) := by
  unfold prepare at succeeded ⊢
  by_cases none : workload.numOperations = 0
  · rw [if_pos none]
    exact ⟨rfl, none.symm, .inl ⟨rfl, rfl⟩⟩
  · rw [if_neg none] at succeeded ⊢
    generalize (Generator.generate workload.generator store workload.numOperations).run
      { store := state, source := workload.source, notes := [] : Preparation σ γ } = ended
      at succeeded ⊢
    obtain ⟨result, p⟩ := ended
    cases result with
    | error error => cases succeeded
    | ok items =>
        dsimp only at succeeded ⊢
        split at succeeded
        · next length =>
            rw [if_pos length]
            exact ⟨rfl, length, .inr ⟨p, rfl, rfl⟩⟩
        · cases succeeded

/-- What is synthesized with open requests is executed in order: each item succeeds when its turn
comes, and all of them leave what their calls do.
-/
theorem prepare_executes (workload : GeneratedWorkload κ γ) {items : List WorkItem}
    {p : Preparation Database γ}
    (run
      : (Generator.generate workload.generator Database.store workload.numOperations).run
          { store := db, source := workload.source, notes := [] } = (.ok items, p))
    (length : items.length = workload.numOperations)
    (idle : workload.numOperations = 0 → p.store = db ∧ p.notes = [])
    (sound : p.store.Sound) (pending : load.Pending p.store (items.map (·.call)))
    : let prepared := workload.prepare Database.store db
      prepared.1 = (.ok (), p.notes)
        ∧ prepared.2.1.items = items
        ∧ prepared.2.2 = p.store
        ∧ (∀ index item, items[index]? = some item →
            (prepared.2.1.execute index Database.store
              (prepared.2.1.executeAll Database.store (List.range index) prepared.2.2)).1
            = .ok item.bytes)
        ∧ prepared.2.1.executeAll Database.store (List.range workload.numOperations) prepared.2.2
            = p.store.serveAll (items.map (·.call)) := by
  obtain ⟨next, prepared, same, ready⟩ := prepare_of_run run length idle
  rw [prepared]
  subst same
  refine ⟨rfl, rfl, rfl, fun index item found => execute_inOrder ready sound pending found, ?_⟩
  have all : (next.items.map (·.call)).length ≤ workload.numOperations := by
    rw [List.length_map, length]
  rw [executeAll_range ready, List.take_of_length_le all]

end GeneratedWorkload
end LineageLoad
