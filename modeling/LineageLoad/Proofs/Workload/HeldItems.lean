import LineageLoad.Workload.Lifecycle
import Mathlib.Data.List.Induction

/-!
What a workload holds after any calls, each of them on any store: the items of the last preparation
that succeeded, unless it was torn down since then.
-/

namespace LineageLoad

/-- One call to a workload. Each call has a store of its own, in any state. -/
inductive LifeCall where
  | prepare {σ : Type} (store : Store σ) (state : σ)
  | execute {σ : Type} (index elapsed : Nat) (store : Store σ) (state : σ)
  | teardown

namespace GeneratedWorkload

variable {κ γ : Type} [Generator κ] [WordSource γ]

-----------------------------------------------------------------------------------------
-- Preparations
-----------------------------------------------------------------------------------------

/-- A preparation provides items: one for each operation, as the generator synthesizes them from the
store and from the words that follow; without operations there are none, and nothing is asked.
-/
inductive Provides (workload : GeneratedWorkload κ γ) : LifeCall → List WorkItem → Prop
  | idle {σ : Type} {store : Store σ} {state : σ} (none : workload.numOperations = 0)
    : Provides workload (.prepare store state) []
  | synthesized {σ : Type} {store : Store σ} {state : σ} {items : List WorkItem}
    (some : 0 < workload.numOperations)
    (made
      : ((Generator.generate workload.generator store workload.numOperations).run
          { store := state, source := workload.source, notes := [] }).1 = .ok items)
    (length : items.length = workload.numOperations)
    : Provides workload (.prepare store state) items

/-- How a preparation ends: it succeeds and the workload holds what it provides, or it fails and
provides nothing, and then the workload holds what it held.
-/
inductive Prepared {σ : Type} (workload : GeneratedWorkload κ γ) (store : Store σ) (state : σ)
    : Except BenchError Unit → GeneratedWorkload κ γ → Prop
  | succeeded {items source} (provides : workload.Provides (.prepare store state) items)
    : Prepared workload store state (.ok ()) { workload with items, source, isPrepared := true }
  | failed {error source} (nothing : ∀ items, ¬workload.Provides (.prepare store state) items)
    : Prepared workload store state (.error error) { workload with source }

variable {σ : Type} {store : Store σ} {state : σ} {workload : GeneratedWorkload κ γ}

/-- A preparation ends in one of the two ways, by its checks in turn. -/
theorem prepare_prepared (workload : GeneratedWorkload κ γ) (store : Store σ) (state : σ)
    : workload.Prepared store state (workload.prepare store state).1.1
        (workload.prepare store state).2.1 := by
  unfold prepare
  by_cases none : workload.numOperations = 0
  · rw [if_pos none]
    exact .succeeded (.idle none)
  · rw [if_neg none]
    have positive := Nat.pos_of_ne_zero none
    cases ended : (Generator.generate workload.generator store workload.numOperations).run
      { store := state, source := workload.source, notes := [] : Preparation σ γ } with
    | mk result p =>
        have made := congrArg Prod.fst ended
        cases result with
        | error error =>
            refine .failed fun items provides => ?_
            cases provides with
            | idle none => exact absurd none (Nat.ne_of_gt positive)
            | synthesized _ other => cases made.symm.trans other
        | ok items =>
            dsimp only
            split
            · next length => exact .succeeded (.synthesized positive made length)
            · next wrong =>
                refine .failed fun other provides => ?_
                cases provides with
                | idle none => exact absurd none (Nat.ne_of_gt positive)
                | synthesized _ again length =>
                    cases made.symm.trans again
                    exact wrong length

/-- What a preparation provides is determined by what it meets. -/
theorem Provides.unique {call : LifeCall} {items other : List WorkItem}
    (provides : workload.Provides call items) (again : workload.Provides call other)
    : items = other := by
  cases provides with
  | idle none =>
      cases again with
      | idle => rfl
      | synthesized some => exact absurd none (Nat.ne_of_gt some)
  | synthesized some made =>
      cases again with
      | idle none => exact absurd none (Nat.ne_of_gt some)
      | synthesized _ same => exact Except.ok.inj (made.symm.trans same)

theorem Provides.length {call : LifeCall} {items : List WorkItem}
    (provides : workload.Provides call items)
    : items.length = workload.numOperations := by
  cases provides with
  | idle none => exact none.symm
  | synthesized _ _ length => exact length

/-- Without operations a preparation succeeds and does not ask the store. -/
theorem prepare_of_none (none : workload.numOperations = 0) (store : Store σ) (state : σ)
    : (workload.prepare store state).1 = (.ok (), [])
        ∧ (workload.prepare store state).2.2 = state := by
  unfold prepare
  rw [if_pos none]
  exact ⟨rfl, rfl⟩

-----------------------------------------------------------------------------------------
-- Calls one after the other
-----------------------------------------------------------------------------------------

/-- A workload after a call. -/
def afterCall (workload : GeneratedWorkload κ γ) : LifeCall → GeneratedWorkload κ γ
  | .prepare store state => (Workload.prepare workload store state).2.1
  | .execute index elapsed store state => (Workload.execute workload index elapsed store state).2.1
  | .teardown => Workload.teardown workload

/-- A workload after some calls. -/
def afterCalls (workload : GeneratedWorkload κ γ) (calls : List LifeCall)
    : GeneratedWorkload κ γ :=
  calls.foldl afterCall workload

/-- The call takes away what the workload held: it tears it down, or it prepares it anew. -/
def Renews (workload : GeneratedWorkload κ γ) : LifeCall → Prop
  | .prepare store state => (workload.prepare store state).1.1 = .ok ()
  | .execute .. => False
  | .teardown => True

theorem renews_prepare_iff {σ : Type} {store : Store σ} {state : σ}
    {workload : GeneratedWorkload κ γ}
    : workload.Renews (.prepare store state) ↔ (workload.prepare store state).1.1 = .ok () :=
  .rfl

/-- The last preparation that succeeded provided these items, and the workload was not torn down
since then: no later call takes them away.
-/
def LastProvided (start : GeneratedWorkload κ γ) (calls : List LifeCall) (items : List WorkItem)
    : Prop :=
  ∃ earlier call, earlier ++ [call] <+: calls
    ∧ (start.afterCalls earlier).Provides call items
    ∧ ∀ further next, further ++ [next] <+: calls → earlier.length < further.length →
        ¬(start.afterCalls further).Renews next

variable {start : GeneratedWorkload κ γ} {calls : List LifeCall} {items : List WorkItem}
  {last : LifeCall}

theorem afterCalls_concat
    : start.afterCalls (calls ++ [last]) = (start.afterCalls calls).afterCall last :=
  List.foldl_append

theorem not_lastProvided_nil
    : ¬start.LastProvided [] items := by
  intro provided
  obtain ⟨earlier, call, prior, _⟩ := provided
  simp at prior

/-- One more call provides the items, or it leaves those that were provided before. -/
theorem lastProvided_concat_iff
    : start.LastProvided (calls ++ [last]) items
      ↔ (start.afterCalls calls).Provides last items
        ∨ ¬(start.afterCalls calls).Renews last ∧ start.LastProvided calls items := by
  constructor
  · intro provided
    obtain ⟨earlier, call, prior, provides, kept⟩ := provided
    rcases List.prefix_concat_iff.mp prior with same | before
    · obtain ⟨rfl, one⟩ := List.append_inj' same rfl
      cases one
      exact .inl provides
    · have shorter : earlier.length < calls.length := by
        simpa [Nat.succ_le_iff] using before.length_le
      have keeps := kept calls last (List.prefix_refl _) shorter
      refine .inr ⟨keeps, earlier, call, before, provides, ?_⟩
      intro further next within later
      exact kept further next (within.trans (List.prefix_append _ _)) later
  · intro cases
    rcases cases with provides | ⟨keeps, earlier, call, before, provides, kept⟩
    · refine ⟨calls, last, List.prefix_refl _, provides, fun further next within later => ?_⟩
      have shorter := within.length_le
      simp only [List.length_append, List.length_singleton] at shorter
      omega
    · refine ⟨earlier, call, before.trans (List.prefix_append _ _), provides, ?_⟩
      intro further next within later
      rcases List.prefix_concat_iff.mp within with same | sooner
      · obtain ⟨rfl, one⟩ := List.append_inj' same rfl
        cases one
        exact keeps
      · exact kept further next sooner later

/-- What a workload is after some calls: it is for the same load, and it is prepared just with the
items that were provided last. If it is not prepared, then it holds nothing.
-/
structure Holding (start : GeneratedWorkload κ γ) (calls : List LifeCall)
    (workload : GeneratedWorkload κ γ) : Prop where
  numOperations : workload.numOperations = start.numOperations
  provided : workload.isPrepared = true → start.LastProvided calls workload.items
  only : ∀ items, start.LastProvided calls items →
    workload.isPrepared = true ∧ workload.items = items
  length : workload.isPrepared = true → workload.items.length = workload.numOperations
  nothing : workload.isPrepared = false → workload.items = []

/-- A call that takes nothing away and provides nothing leaves what is held. -/
theorem Holding.keep (holding : Holding start calls (start.afterCalls calls))
    (keeps : ¬(start.afterCalls calls).Renews last)
    (without : ∀ items, ¬(start.afterCalls calls).Provides last items) (source : γ)
    : Holding start (calls ++ [last]) { start.afterCalls calls with source } where
  numOperations := holding.numOperations
  provided ready := lastProvided_concat_iff.mpr (.inr ⟨keeps, holding.provided ready⟩)
  only items provided := by
    rcases lastProvided_concat_iff.mp provided with provides | ⟨_, before⟩
    · exact absurd provides (without items)
    · exact holding.only items before
  length := holding.length
  nothing := holding.nothing

/-- After a preparation that succeeded, the workload holds what it provided. -/
theorem Holding.renew (holding : Holding start calls (start.afterCalls calls))
    (renews : (start.afterCalls calls).Renews last)
    (provides : (start.afterCalls calls).Provides last items) (source : γ)
    : Holding start (calls ++ [last])
        { start.afterCalls calls with items, source, isPrepared := true } where
  numOperations := holding.numOperations
  provided _ := lastProvided_concat_iff.mpr (.inl provides)
  only other provided := by
    rcases lastProvided_concat_iff.mp provided with again | ⟨keeps, _⟩
    · exact ⟨rfl, provides.unique again⟩
    · exact absurd renews keeps
  length _ := provides.length
  nothing := nofun

/-- After a teardown the workload holds nothing. -/
theorem Holding.teardown (holding : Holding start calls (start.afterCalls calls))
    : Holding start (calls ++ [.teardown]) (start.afterCalls calls).teardown where
  numOperations := holding.numOperations
  provided := nofun
  only items provided := by
    rcases lastProvided_concat_iff.mp provided with provides | ⟨keeps, _⟩
    · cases provides
    · exact absurd trivial keeps
  length := nofun
  nothing _ := rfl

/-- Each call keeps it, by the kinds of calls. -/
theorem Holding.afterCall (holding : Holding start calls (start.afterCalls calls))
    (last : LifeCall)
    : Holding start (calls ++ [last]) ((start.afterCalls calls).afterCall last) := by
  cases last with
  | prepare store state =>
      have prepared := (start.afterCalls calls).prepare_prepared store state
      change Holding _ _ ((start.afterCalls calls).prepare store state).2.1
      generalize ended : (start.afterCalls calls).prepare store state = result at prepared ⊢
      obtain ⟨⟨outcome, notes⟩, next, after⟩ := result
      cases prepared with
      | succeeded provides =>
          refine holding.renew ?_ provides _
          rw [renews_prepare_iff, ended]
      | failed nothing =>
          refine holding.keep ?_ nothing _
          rw [renews_prepare_iff, ended]
          exact nofun
  | execute index elapsed store state =>
      refine holding.keep id ?_ _
      intro items provides
      cases provides
  | teardown => exact holding.teardown

/-- A workload that was not called holds nothing, and each call keeps what is said of it. By
induction from the last call.
-/
theorem holding_afterCalls (new : start.isPrepared = false) (empty : start.items = [])
    (calls : List LifeCall)
    : Holding start calls (start.afterCalls calls) := by
  induction calls using List.reverseRecOn with
  | nil =>
      exact {
        numOperations := rfl
        provided := fun ready => nomatch new.symm.trans ready
        only := fun _ provided => absurd provided not_lastProvided_nil
        length := fun ready => nomatch new.symm.trans ready
        nothing := fun _ => empty
      }
  | append_singleton earlier last ih =>
      rw [afterCalls_concat]
      exact ih.afterCall last

-----------------------------------------------------------------------------------------
-- Executions
-----------------------------------------------------------------------------------------

/-- How an execution ends: the workload is not prepared, it has no item with the index, or the call
of the item is issued.
-/
inductive Executed (workload : GeneratedWorkload κ γ) (index : Nat) (store : Store σ) (state : σ)
    : Except BenchError Nat × σ → Prop
  | unprepared (idle : workload.isPrepared = false)
    : Executed workload index store state (.error (.notSetUp workload.name), state)
  | beyond (ready : workload.isPrepared = true) (beyond : workload.items.length ≤ index)
    : Executed workload index store state
        (.error (.indexOutOfRange workload.name index workload.items.length), state)
  | issued {item} (ready : workload.isPrepared = true) (found : workload.items[index]? = some item)
    : Executed workload index store state
        (((store.serve item.call state).1.mapError .store).map fun _ => item.bytes,
          (store.serve item.call state).2)

omit [WordSource γ] in
theorem execute_executed (workload : GeneratedWorkload κ γ) (index : Nat) (store : Store σ)
    (state : σ)
    : workload.Executed index store state (workload.execute index store state) := by
  unfold execute
  cases ready : workload.isPrepared with
  | false => exact .unprepared ready
  | true =>
      cases found : workload.items[index]? with
      | none => exact .beyond ready (List.getElem?_eq_none_iff.mp found)
      | some item => exact .issued ready found

/-- A call that fails fails for the store. -/
theorem category_of_served {call : Call} {reply : Except StoreError call.Reply} {bytes : Nat}
    {error : BenchError}
    (failed : ((reply.mapError BenchError.store).map fun _ => bytes) = .error error)
    : error.category = .store := by
  cases reply with
  | ok reply => cases failed
  | error cause =>
      cases failed
      rfl

omit [WordSource γ] in
/-- An execution says that the workload is not prepared just if that is so. -/
theorem execute_eq_notSetUp_iff (index : Nat)
    : workload.execute index store state = (.error (.notSetUp workload.name), state)
      ↔ workload.isPrepared = false := by
  have executed := workload.execute_executed index store state
  generalize workload.execute index store state = ended at executed ⊢
  cases executed with
  | unprepared idle => exact iff_of_true rfl idle
  | beyond ready => exact iff_of_false nofun (by simp [ready])
  | issued ready =>
      refine iff_of_false (fun same => ?_) (by simp [ready])
      cases category_of_served (congrArg Prod.fst same)

omit [WordSource γ] in
/-- An execution says that an index is out of range just if the workload is prepared with too few
items.
-/
theorem execute_eq_indexOutOfRange_iff (index held : Nat)
    : workload.execute index store state
          = (.error (.indexOutOfRange workload.name index held), state)
      ↔ workload.isPrepared = true ∧ workload.items.length = held ∧ held ≤ index := by
  have executed := workload.execute_executed index store state
  generalize workload.execute index store state = ended at executed ⊢
  cases executed with
  | unprepared idle => exact iff_of_false nofun (by simp [idle])
  | beyond ready beyond =>
      constructor
      · intro same
        cases same
        exact ⟨ready, rfl, beyond⟩
      · intro held
        obtain ⟨_, rfl, _⟩ := held
        rfl
  | issued ready found =>
      refine iff_of_false (fun same => ?_) fun beyond => ?_
      · cases category_of_served (congrArg Prod.fst same)
      · obtain ⟨_, rfl, beyond⟩ := beyond
        rw [List.getElem?_eq_none_iff.mpr beyond] at found
        cases found

omit [WordSource γ] in
theorem execute_of_item (ready : workload.isPrepared = true) {index : Nat} {item : WorkItem}
    (found : workload.items[index]? = some item) (store : Store σ) (state : σ)
    : workload.execute index store state
        = (((store.serve item.call state).1.mapError .store).map fun _ => item.bytes,
            (store.serve item.call state).2) := by
  have executed := workload.execute_executed index store state
  generalize workload.execute index store state = ended at executed ⊢
  cases executed with
  | unprepared idle => cases idle.symm.trans ready
  | beyond _ beyond =>
      rw [List.getElem?_eq_none_iff.mpr beyond] at found
      cases found
  | issued _ same =>
      cases found.symm.trans same
      rfl

/-- A workload is called any number of times, each time on any store, which may fail; its generator
may fail too, or synthesize another number of items. After each call it holds an item for each
operation if it is prepared, and none if it is not; and it is prepared with the items that the last
successful preparation provided, if it was not torn down since then. An execution without such a
preparation says so, and one beyond the operations names its index; neither of them asks the store.
Any other one issues the call of the item in its place, and answers the size of this item if the
call is served. Without operations each preparation succeeds, and the store is not asked.
-/
theorem afterCalls_holds (generator : κ) (numOperations : Nat) (source : γ)
    (calls : List LifeCall)
    : let start : GeneratedWorkload κ γ := { generator, numOperations, source }
      let workload := start.afterCalls calls
      (workload.isPrepared = true → Workload.numItems workload = numOperations)
        ∧ (workload.isPrepared = false → Workload.numItems workload = 0)
        ∧ (∀ items, workload.isPrepared = true ∧ workload.items = items
          ↔ start.LastProvided calls items)
        ∧ (∀ (σ : Type) (store : Store σ) (state : σ) (index : Nat),
            (workload.execute index store state = (.error (.notSetUp workload.name), state)
              ↔ ¬∃ items, start.LastProvided calls items)
            ∧ (workload.execute index store state
                = (.error (.indexOutOfRange workload.name index numOperations), state)
              ↔ (∃ items, start.LastProvided calls items) ∧ numOperations ≤ index)
            ∧ ∀ items, start.LastProvided calls items → ∀ item, items[index]? = some item →
                workload.execute index store state
                  = (((store.serve item.call state).1.mapError .store).map fun _ => item.bytes,
                      (store.serve item.call state).2))
        ∧ (numOperations = 0 → ∀ (σ : Type) (store : Store σ) (state : σ),
            (workload.prepare store state).1 = (.ok (), [])
            ∧ (workload.prepare store state).2.2 = state) := by
  intro start workload
  have holding : Holding start calls workload := holding_afterCalls rfl rfl calls
  have same : workload.numOperations = numOperations := holding.numOperations
  have length (ready : workload.isPrepared = true) : workload.items.length = numOperations :=
    (holding.length ready).trans same
  have prepared_iff : workload.isPrepared = true ↔ ∃ items, start.LastProvided calls items := by
    constructor
    · intro ready
      exact ⟨_, holding.provided ready⟩
    · intro provided
      obtain ⟨items, provided⟩ := provided
      exact (holding.only items provided).1
  refine ⟨length, fun idle => ?_, fun items => ⟨fun held => ?_, holding.only items⟩,
    fun σ store state index => ⟨?_, ?_, fun items provided item found => ?_⟩,
    fun none σ store state => ?_⟩
  · exact congrArg List.length (holding.nothing idle)
  · exact held.2 ▸ holding.provided held.1
  · rw [execute_eq_notSetUp_iff, ← prepared_iff, Bool.not_eq_true]
  · rw [execute_eq_indexOutOfRange_iff, ← prepared_iff]
    exact and_congr_right fun ready => and_iff_right (length ready)
  · obtain ⟨ready, rfl⟩ := holding.only items provided
    exact execute_of_item ready found store state
  · exact prepare_of_none (same.trans none) store state

end GeneratedWorkload
end LineageLoad
