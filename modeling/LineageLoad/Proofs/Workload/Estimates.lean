import LineageLoad.Proofs.Runner.Replays

/-!
The estimates of loads that read are exact, and they stay so while the items are executed: nothing
changes the contents.
-/

namespace LineageLoad

variable {γ : Type} [WordSource γ] {db : Database}

/-- Calls that read leave the contents as they are, by induction on the calls. -/
theorem Database.serveAll_of_measures {calls : List Call}
    (measures : ∀ call ∈ calls, ∃ bytes, db.Measures call bytes)
    : db.serveAll calls = db := by
  induction calls with
  | nil => rfl
  | cons call rest ih =>
      obtain ⟨⟨_, reply, served, _⟩, others⟩ := List.forall_mem_cons.mp measures
      rw [serveAll, List.foldl_cons, served]
      exact ih others

/-- Executing an item answers its estimate. -/
theorem GeneratedWorkload.execute_of_measures {κ γ : Type} [Generator κ] [WordSource γ]
    {workload : GeneratedWorkload κ γ} (prepared : workload.isPrepared = true) {index : Nat}
    {item : WorkItem} (found : workload.items[index]? = some item)
    (measures : db.Measures item.call item.bytes)
    : workload.execute index Database.store db = (.ok item.bytes, db) := by
  obtain ⟨reply, served, _⟩ := measures
  obtain ⟨kept, answered, rfl⟩ := db.mirrors_self.request served db rfl
  unfold execute
  rw [prepared, found, if_neg (by decide)]
  dsimp only
  rw [answered]
  rfl

/-- The estimates of a load that reads are exact, whatever words are drawn. Something is synthesized
exactly if there is something to read, and the contents stay as they are. Then there are as many
items as operations, and what the request of an item reads has the estimated size. This stays so for
all items, since executing any of them in any order changes nothing.
-/
theorem Load.generate_estimates (reachable : db.Reachable) {load : Load Sampler}
    (reading : load.isReading = true) {count : Nat} (positive : 0 < count) (source : γ)
    (notes : List Note)
    : let generated := (load.generate Database.store count).run { store := db, source, notes }
      generated.2.store = db
        ∧ ((∃ items, generated.1 = .ok items) ↔ ∃ call, load.MayRead db call)
        ∧ ∀ items, generated.1 = .ok items →
            items.length = count
            ∧ (∀ item ∈ items, load.MayRead db item.call
                ∧ ∃ reply, Database.serve item.call db = (.ok reply, db)
                  ∧ item.call.replyBytes reply = item.bytes)
            ∧ ∀ workload : GeneratedWorkload (Load Sampler) γ,
                workload.isPrepared = true → workload.items = items →
                  ∀ indices,
                    workload.executeAll Database.store indices db = db
                    ∧ ∀ index item, items[index]? = some item →
                        workload.execute index Database.store
                          (workload.executeAll Database.store indices db)
                        = (.ok item.bytes, db) := by
  intro generated
  obtain ⟨_, possible, succeeds⟩ :=
    load.generate_resolves (γ := γ) db.mirrors_self reachable.sound reading count
  have resolves := succeeds.congr (possible positive) { store := db, source, notes } rfl
  change Resolves _ _ _ generated at resolves
  generalize generated = ended at resolves ⊢
  cases resolves with
  | @refused error p cannot _ kept =>
      refine ⟨kept, ⟨?_, fun can => absurd can cannot⟩, ?_⟩
      · rintro ⟨_, ⟨⟩⟩
      · rintro _ ⟨⟩
  | @succeeded items p can holds =>
      obtain ⟨⟨length, estimates⟩, kept⟩ := holds
      refine ⟨kept, ⟨fun _ => can, fun _ => ⟨items, rfl⟩⟩, ?_⟩
      rintro _ ⟨⟩
      refine ⟨length,
        fun item member => ⟨(estimates item member).candidate, (estimates item member).exact⟩,
        fun workload prepared same indices => ?_⟩
      subst same
      have unchanged : workload.executeAll Database.store indices db = db := by
        rw [GeneratedWorkload.executeAll_eq prepared]
        refine Database.serveAll_of_measures fun call member => ?_
        obtain ⟨index, _, found⟩ := List.mem_filterMap.mp member
        obtain ⟨item, there, rfl⟩ := List.mem_map.mp (List.mem_of_getElem? found)
        exact ⟨item.bytes, (estimates item there).exact⟩
      refine ⟨unchanged, fun index item found => ?_⟩
      rw [unchanged]
      exact workload.execute_of_measures prepared found
        (estimates item (List.mem_of_getElem? found)).exact

/-- Contents with two datasets, whose names differ in length. -/
def twoDatasets : Database :=
  let dataset (name : String) : Node := ⟨none, 1, "", some name, ∅, ∅⟩
  Database.empty.serveAll
    [.putType .artifact ⟨none, "Dataset", ∅⟩ false,
      .putNodes .artifact [dataset "one", dataset "another"]]

/-- The datasets are read together by the name of their type, with the size of both. -/
theorem Load.generate_estimates_twoDatasets
    : let generated := ((Load.readNodes .artifact .byType).generate Database.store 3).run
        { store := twoDatasets, source := (fun _ => 0 : Nat → UInt64), notes := [] }
      twoDatasets.Reachable
        ∧ ∃ items, generated.1 = .ok items
          ∧ items.map (·.bytes) = [56, 56, 56]
          ∧ ∀ item ∈ items, ∃ reply,
              Database.serve item.call twoDatasets = (.ok reply, twoDatasets)
              ∧ item.call.replyBytes reply = item.bytes := by
  intro generated
  have reachable : twoDatasets.Reachable := ⟨_, rfl⟩
  have stored : twoDatasets.typeById? .artifact 1 = some ⟨some 1, "Dataset", ∅⟩ := by rfl
  have sizes : generated.1.toOption.map (·.map (·.bytes)) = some [56, 56, 56] := by decide +kernel
  have reading : (Load.readNodes .artifact .byType).isReading = true := rfl
  obtain ⟨_, succeeds, exact⟩ := Load.generate_estimates reachable reading (by decide : 0 < 3)
    (fun _ => 0 : Nat → UInt64) []
  obtain ⟨items, made⟩ := succeeds.mpr ⟨_, .nodesOfType stored⟩
  have made : generated.1 = .ok items := made
  rw [made] at sizes
  exact ⟨reachable, items, made, Option.some.inj sizes,
    fun item member => ((exact items made).2.1 item member).2⟩

end LineageLoad
