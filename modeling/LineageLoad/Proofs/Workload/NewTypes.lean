import LineageLoad.Proofs.Store.Rows
import LineageLoad.Proofs.Workload.Executions

/-!
What a load that creates types does: which types it makes up, under which names, and what the store
holds after they were created in their order.
-/

namespace LineageLoad
namespace FillTypes

variable {γ : Type} [WordSource γ] {kind : Kind} {numProperties : Sampler}

-----------------------------------------------------------------------------------------
-- New types
-----------------------------------------------------------------------------------------

/-- The properties of a new type are those with the numbers below their count, all of them texts. -/
theorem getElem?_newProperties {count : Nat} {name : String} {declared : PropertyType}
    : (newProperties count)[name]? = some declared
      ↔ declared = .string ∧ ∃ number < count, name = numbered "p-" number := by
  have apart : (((List.range count).map fun i => (numbered "p-" i, PropertyType.string)).map
      (·.1)).Nodup := by
    rw [List.map_map]
    exact List.nodup_range.map fun _ _ => numbered_injective
  rw [newProperties, getElem?_ofList_iff apart]
  simp only [List.mem_map, List.mem_range, Prod.mk.injEq]
  constructor
  · rintro ⟨number, below, rfl, rfl⟩
    exact ⟨rfl, number, below, rfl⟩
  · rintro ⟨rfl, number, below, rfl⟩
    exact ⟨number, below, rfl, rfl⟩

-----------------------------------------------------------------------------------------
-- Synthesis
-----------------------------------------------------------------------------------------

/-- A load creates types from the number of types of all kinds on, and of names of the kind. -/
theorem run_inserts (kind : Kind) (numProperties : Sampler) (count : Nat) (db : Database)
    (source : γ) (notes : List Note)
    : ∃ numbers,
        numbers.length = count
        ∧ FirstNumbers
            (fun k =>
              (db.typesOf .artifact).length + (db.typesOf .execution).length
                  + (db.typesOf .context).length ≤ k
                ∧ numbered "type_" k ∉ (db.typesOf kind).map (·.name)) numbers
        ∧ (Load.fillTypes kind false numProperties).Pending db
            (((newTypes numbers (numProperties.samples count source).1).map (item kind · false)).map
              (·.call))
        ∧ (inserts kind numProperties Database.store count).run { store := db, source, notes }
          = (.ok
              ((newTypes numbers (numProperties.samples count source).1).map (item kind · false)),
              { store := db, source := (numProperties.samples count source).2, notes }) := by
  obtain ⟨numbers, length, first, run⟩ := run_insertItems kind numProperties count
    ((db.typesOf .artifact).length + (db.typesOf .execution).length
      + (db.typesOf .context).length) ((db.typesOf kind).map (·.name)) source
  have same : (numProperties.samples count source).1.length = numbers.length :=
    (numProperties.length_samples count source).trans length.symm
  refine ⟨numbers, length, first, newTypes_pending (fun number chosen id stored found taken => ?_)
    first.nodup same, ?_⟩
  · have listed : stored ∈ db.typesOf kind := Database.mem_typesOf_iff.mpr ⟨id, found⟩
    exact (first.holds number chosen).2 (List.mem_map.mpr ⟨stored, listed, taken⟩)
  have existing : (Database.store.existingTypes kind).run db = (.ok (db.typesOf kind), db) := rfl
  have total : Database.store.totalTypes.run db
      = (.ok ((db.typesOf .artifact).length + (db.typesOf .execution).length
        + (db.typesOf .context).length), db) := rfl
  unfold inserts
  rw [run_bind_of_ok (PrepareM.run_onStore existing source notes),
    run_bind_of_ok (PrepareM.run_onStore total source notes),
    PrepareM.run_onSource run db notes]

/-- Open requests for types add these in their order. -/
theorem addsTypes_items {db : Database} {types : List EntityType}
    (pending
      : (Load.fillTypes kind false numProperties).Pending db
          ((types.map (item kind · false)).map (·.call)))
    (sound : db.Sound)
    : db.AddsTypes kind types (db.serveAll ((types.map (item kind · false)).map (·.call))) := by
  have adds := pending.addsTypes sound
  have handed : ((types.map (item kind · false)).map (·.call)).flatMap Call.types = types := by
    rw [calls_items, List.flatMap_map]
    exact List.flatMap_singleton' types
  rwa [handed] at adds

-----------------------------------------------------------------------------------------
-- Whole loads
-----------------------------------------------------------------------------------------

/-- What a load that creates types does, whatever words are drawn and after any calls. It is
prepared without writing. Its types have the first names from the number of types of all kinds on
that no type of the kind has, in this order; they come without an id, and declare as many numbered
texts as was drawn for them, within the range. Executed in their order, all items succeed. The types
are then listed after those that were there, under the ids after the one given last, and nothing
else changes.
-/
theorem prepare_newTypes (calls : List Call) (kind : Kind) (numProperties : Sampler) (count : Nat)
    (source : γ) (held : List WorkItem) (isPrepared : Bool)
    : let db := Database.empty.serveAll calls
      let total := (db.typesOf .artifact).length + (db.typesOf .execution).length
        + (db.typesOf .context).length
      let workload : GeneratedWorkload (Load Sampler) γ :=
        ⟨.fillTypes kind false numProperties, count, source, held, isPrepared⟩
      let prepared := workload.prepare Database.store db
      let counts := (numProperties.samples count source).1
      let final := prepared.2.1.executeAll Database.store (List.range count) prepared.2.2
      prepared.1 = (.ok (), [])
        ∧ prepared.2.2 = db
        ∧ ∃ types numbers,
            types.length = count
            ∧ prepared.2.1.items.map (·.call) = types.map (.putType kind · false)
            ∧ types.map (·.name) = numbers.map (numbered "type_")
            ∧ FirstNumbers
                (fun k => total ≤ k ∧ numbered "type_" k ∉ (db.typesOf kind).map (·.name)) numbers
            ∧ (types.map (·.name)).Nodup
            ∧ (∀ (index : Nat) type, types[index]? = some type →
                type.id = none
                ∧ ∃ sampled, counts[index]? = some sampled
                  ∧ numProperties.minimum ≤ sampled ∧ sampled ≤ numProperties.maximum
                  ∧ ∀ (name : String) declared, type.properties[name]? = some declared
                      ↔ declared = .string ∧ ∃ number < sampled, name = numbered "p-" number)
            ∧ (∀ (index : Nat) item, prepared.2.1.items[index]? = some item →
                (prepared.2.1.execute index Database.store
                  (prepared.2.1.executeAll Database.store (List.range index) db)).1
                = .ok item.bytes)
            ∧ final.typesOf kind
              = db.typesOf kind
                ++ (enumerated total types).map (fun (id, type) => { type with id := some id })
            ∧ final = { db with
                types := db.types.set kind (final.types.get kind)
                lastTypeId := total + count } := by
  intro db total workload prepared counts final
  have sound : db.Sound := Database.empty_sound.serveAll calls
  have told := Database.empty_toldBy.serveAll Database.empty_sound calls
  have last : db.lastTypeId = total := told.lastTypeId_eq sound
  obtain ⟨numbers, length, first, pending, run⟩ :=
    run_inserts kind numProperties count db source []
  have drawn : counts.length = numbers.length :=
    (numProperties.length_samples count source).trans length.symm
  have created : (newTypes numbers counts).length = count := (length_newTypes drawn).trans length
  obtain ⟨succeeds, same, unchanged, executes, leaves⟩ :=
    GeneratedWorkload.prepare_executes workload run ((List.length_map _).trans created)
      (fun _ => ⟨rfl, rfl⟩) sound pending
  have adds := addsTypes_items pending sound
  rw [← leaves] at adds
  have listed := adds.typesOf sound
  have final_last := adds.lastTypeId
  rw [last, created] at final_last
  refine ⟨succeeds, unchanged, newTypes numbers counts, numbers, created, ?calls,
    names_newTypes drawn, first, ?nodup, fun index type found => ?declares, ?executes, ?listed,
    ?frame⟩
  case calls => rw [same, calls_items]
  case nodup =>
    rw [names_newTypes drawn]
    exact first.nodup.map fun _ _ => numbered_injective
  case declares =>
    obtain ⟨number, sampled, _, there, rfl⟩ := getElem?_newTypes found
    obtain ⟨least, most⟩ := numProperties.samples_bounds count source sampled
      (List.mem_of_getElem? there)
    exact ⟨rfl, sampled, there, least, most, fun name declared => getElem?_newProperties⟩
  case executes =>
    intro index item found
    rw [same] at found
    have ended := executes index item found
    rwa [unchanged] at ended
  case listed =>
    rw [last] at listed
    exact listed
  case frame =>
    have frame := adds.frame
    rwa [final_last] at frame

/-- A name that a type has is passed over. -/
example
    : let workload : GeneratedWorkload (Load Sampler) (Nat → UInt64) :=
        { generator := .fillTypes .artifact false ⟨1, 2, by decide⟩, numOperations := 2,
          source := fun _ => 0 }
      let db := Database.empty.serveAll [.putType .artifact ⟨none, "type_2", ∅⟩ false]
      (workload.prepare Database.store db).2.1.items.flatMap
          (fun item => item.call.types.map (·.name))
        = ["type_1", "type_3"] := by
  decide +kernel

end FillTypes
end LineageLoad
