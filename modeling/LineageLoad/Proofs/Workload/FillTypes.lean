import LineageLoad.Proofs.Random.Counts
import LineageLoad.Proofs.Store.Listings
import LineageLoad.Proofs.Workload.MakeUp
import LineageLoad.Proofs.Workload.Names
import LineageLoad.Workload.FillTypes

/-!
The requests for types are open: new types have names that no type of the kind has, and updates keep
every property of the type they extend.
-/

namespace LineageLoad
namespace FillTypes

variable {γ : Type} [WordSource γ] {db : Database} {kind : Kind} {numProperties : Sampler}
  {name : String} {connection : Connection}

-----------------------------------------------------------------------------------------
-- Items
-----------------------------------------------------------------------------------------

theorem calls_items (types : List EntityType) (canAddFields : Bool)
    : (types.map (item kind · canAddFields)).map (·.call)
        = types.map (.putType kind · canAddFields) :=
  List.map_map

/-- Requests for types of different names do not write the same. -/
theorem nodup_targets {types : List EntityType} {canAddFields : Bool}
    (apart : (types.map (·.name)).Nodup)
    : ((types.map (.putType kind · canAddFields)).filterMap Call.target?).Nodup := by
  have targets : (types.map (Call.putType kind · canAddFields)).filterMap Call.target?
      = (types.map (·.name)).map Target.type := by
    rw [List.filterMap_map, List.map_map, ← List.filterMap_eq_map]
    rfl
  rw [targets]
  exact apart.map fun _ _ => Target.type.inj

-----------------------------------------------------------------------------------------
-- New types
-----------------------------------------------------------------------------------------

/-- The new type with a number and a count of properties. -/
def newType (number properties : Nat) : EntityType :=
  { id := none, name := numbered "type_" number, properties := newProperties properties }

/-- The new types with some numbers and counts of properties, in turn. -/
def newTypes (numbers counts : List Nat) : List EntityType :=
  (numbers.zip counts).map fun (number, properties) => newType number properties

/-- Items for new types take the first numbers whose names are not in use, and the counts that are
drawn in turn. By induction on their number.
-/
theorem run_insertItems (kind : Kind) (numProperties : Sampler) (count next : Nat)
    (taken : List String) (g : γ)
    : ∃ numbers,
        numbers.length = count
        ∧ FirstNumbers (fun k => next ≤ k ∧ numbered "type_" k ∉ taken) numbers
        ∧ (insertItems kind numProperties count next taken).run g
          = (.ok ((newTypes numbers (numProperties.samples count g).1).map (item kind · false)),
              (numProperties.samples count g).2) := by
  induction count generalizing next taken g with
  | zero => exact ⟨[], rfl, .nil, rfl⟩
  | succ count ih =>
      obtain ⟨number, here⟩ : ∃ number,
          firstFree (fun k => taken.contains (numbered "type_" k)) (taken.length + 1) next
            = number := ⟨_, rfl⟩
      obtain ⟨numbers, length, first, run⟩ := ih (number + 1) (numbered "type_" number :: taken)
        (numProperties.sample g).2
      refine ⟨number :: numbers, congrArg Nat.succ length, first.cons_unused here, ?_⟩
      unfold insertItems
      dsimp only
      rw [here, run_bind_of_ok (DrawM.run_draw numProperties.sample g), run_bind_of_ok run]
      rfl

section

variable {numbers counts : List Nat}

/-- A new type has one of the numbers and the count in the same place. -/
theorem getElem?_newTypes {index : Nat} {type : EntityType}
    (found : (newTypes numbers counts)[index]? = some type)
    : ∃ number properties, numbers[index]? = some number ∧ counts[index]? = some properties
        ∧ type = newType number properties := by
  rw [newTypes, List.getElem?_map, Option.map_eq_some_iff] at found
  obtain ⟨⟨number, properties⟩, paired, rfl⟩ := found
  obtain ⟨first, second⟩ := List.getElem?_zip_eq_some.mp paired
  exact ⟨number, properties, first, second, rfl⟩

theorem mem_newTypes {type : EntityType} (member : type ∈ newTypes numbers counts)
    : ∃ number ∈ numbers, ∃ properties, type = newType number properties := by
  obtain ⟨index, found⟩ := List.mem_iff_getElem?.mp member
  obtain ⟨number, properties, first, _, rfl⟩ := getElem?_newTypes found
  exact ⟨number, List.mem_of_getElem? first, properties, rfl⟩

theorem length_newTypes (same : counts.length = numbers.length)
    : (newTypes numbers counts).length = numbers.length := by
  rw [newTypes, List.length_map, List.length_zip, same, Nat.min_self]

theorem names_newTypes (same : counts.length = numbers.length)
    : (newTypes numbers counts).map (·.name) = numbers.map (numbered "type_") := by
  have zipped := List.map_fst_zip (Nat.le_of_eq same.symm)
  rw [newTypes, List.map_map]
  conv_rhs => rw [← zipped, List.map_map]
  rfl

/-- Requests for new types with different numbers are open, if no type of the kind has one of their
names.
-/
theorem newTypes_pending
    (free : ∀ number ∈ numbers, ∀ id stored, db.typeById? kind id = some stored →
      stored.name ≠ numbered "type_" number)
    (apart : numbers.Nodup) (same : counts.length = numbers.length)
    : (Load.fillTypes kind false numProperties).Pending db
        (((newTypes numbers counts).map (item kind · false)).map (·.call)) := by
  rw [calls_items]
  refine ⟨fun call member => ?_, nodup_targets ?_⟩
  · obtain ⟨type, listed, rfl⟩ := List.mem_map.mp member
    obtain ⟨number, chosen, _, rfl⟩ := mem_newTypes listed
    exact .newType rfl (numbered_ne_empty (by decide))
      (Database.typeEntry?_eq_none (free number chosen))
  · rw [names_newTypes same]
    exact apart.map fun _ _ => numbered_injective

end

/-- Items for new types are open, if all names of the kind are among those in use. -/
theorem insertItems_creates {taken : List String}
    (known : ∀ id type, db.typeById? kind id = some type → type.name ∈ taken) (count next : Nat)
    : Draws (insertItems kind numProperties count next taken : DrawM γ _) fun items =>
        items.length = count
        ∧ (Load.fillTypes kind false numProperties).Pending db (items.map (·.call)) := by
  intro g _
  obtain ⟨numbers, length, first, run⟩ := run_insertItems kind numProperties count next taken g
  have same : (numProperties.samples count g).1.length = numbers.length :=
    (numProperties.length_samples count g).trans length.symm
  rw [run]
  refine .answered ⟨?_, newTypes_pending (fun number chosen id type found taken => ?_) first.nodup
    same⟩
  · rw [List.length_map, length_newTypes same, length]
  · exact (first.holds number chosen).2 (taken ▸ known id type found)

theorem totalTypes_answers
    : Answers (Server.Reaches · name connection db) (Server.store connection).totalTypes
        ((db.typesOf .artifact).length + (db.typesOf .execution).length
          + (db.typesOf .context).length) :=
  .bind (.existingTypes _) (.bind (.existingTypes _) (.bind (.existingTypes _) .pure))

theorem inserts_creates (count : Nat)
    : Ensures (Preparation.Reaches · name connection db)
        (inserts kind numProperties (Server.store connection) count : PrepareM Server γ _)
        fun items p =>
          (items.length = count
            ∧ (Load.fillTypes kind false numProperties).Pending db (items.map (·.call)))
          ∧ p.Reaches name connection db := by
  unfold inserts
  refine Answers.ensures (.onStore (.existingTypes _)) ?_
  refine Answers.ensures (.onStore totalTypes_answers) ?_
  refine (insertItems_creates (fun id type found => ?_) count _).onSource
  exact List.mem_map_of_mem (Database.mem_typesOf_iff.mpr ⟨id, found⟩)

-----------------------------------------------------------------------------------------
-- Versions
-----------------------------------------------------------------------------------------

/-- Properties are added one after the other, by induction on their number. -/
theorem addsNumbered_addProperties (count next : Nat) (properties : PropertyMap PropertyType)
    : ∃ numbers,
        numbers.length = count
        ∧ AddsNumbered "add_p-" (· = .string) next properties numbers
          (addProperties count next properties) := by
  induction count generalizing next properties with
  | zero => exact ⟨[], rfl, .nil⟩
  | succ count ih =>
      obtain ⟨number, here⟩ : ∃ number,
          firstFree (fun k => properties.contains (numbered "add_p-" k)) (properties.size + 1) next
            = number := ⟨_, rfl⟩
      obtain ⟨numbers, length, adds⟩ := ih (number + 1)
        (properties.insert (numbered "add_p-" number) .string)
      unfold addProperties
      dsimp only
      rw [here]
      exact ⟨number :: numbers, congrArg Nat.succ length, adds.cons here rfl⟩

/-- Properties are added under the first numbers whose names are not declared, all of them texts,
and the others stay.
-/
theorem exists_addProperties (count next : Nat) (properties : PropertyMap PropertyType)
    : ∃ numbers,
        numbers.length = count
        ∧ FirstNumbers (fun k => next ≤ k ∧ numbered "add_p-" k ∉ properties) numbers
        ∧ (addProperties count next properties).size = properties.size + count
        ∧ ∀ name : String,
            (addProperties count next properties)[name]?
              = if name ∈ numbers.map (numbered "add_p-") then some .string
                else properties[name]? := by
  obtain ⟨numbers, rfl, adds⟩ := addsNumbered_addProperties count next properties
  refine ⟨numbers, rfl, adds.first, adds.size, fun name => ?_⟩
  split
  · next added =>
      obtain ⟨number, chosen, rfl⟩ := List.mem_map.mp added
      obtain ⟨_, found, rfl⟩ := adds.added number chosen
      exact found
  · next elsewhere => exact adds.others name elsewhere

/-- A type with what an update adds to it. -/
def extended (type : EntityType) (sampled : Nat) : EntityType :=
  { type with
    properties := addProperties (max sampled 1) type.properties.size type.properties }

/-- Types with what updates add to them, by the counts in turn. -/
def versions (types : List EntityType) (counts : List Nat) : List EntityType :=
  (types.zip counts).map fun (type, sampled) => extended type sampled

/-- Properties that are added have other names than those that were declared. -/
theorem extended_extends (type : EntityType) (sampled : Nat)
    : (extended type sampled).Extends type := by
  obtain ⟨numbers, _, adds⟩ :=
    addsNumbered_addProperties (max sampled 1) type.properties.size type.properties
  exact ⟨rfl, rfl, fun name declared => adds.keeps⟩

/-- Items for versions of types take the counts that are drawn in turn. By induction on the types.
-/
theorem run_updateItems (kind : Kind) (numProperties : Sampler) (types : List EntityType) (g : γ)
    : (updateItems kind numProperties types).run g
        = (.ok ((versions types (numProperties.samples types.length g).1).map (item kind · true)),
            (numProperties.samples types.length g).2) := by
  induction types generalizing g with
  | nil => rfl
  | cons type rest ih =>
      unfold updateItems
      rw [run_bind_of_ok (DrawM.run_draw numProperties.sample g), run_bind_of_ok (ih _)]
      rfl

section

variable {types : List EntityType} {counts : List Nat}

/-- A version is one of the type and by the count in the same place. -/
theorem getElem?_versions {index : Nat} {type : EntityType}
    (found : (versions types counts)[index]? = some type)
    : ∃ stored sampled, types[index]? = some stored ∧ counts[index]? = some sampled
        ∧ type = extended stored sampled := by
  rw [versions, List.getElem?_map, Option.map_eq_some_iff] at found
  obtain ⟨⟨stored, sampled⟩, paired, rfl⟩ := found
  obtain ⟨first, second⟩ := List.getElem?_zip_eq_some.mp paired
  exact ⟨stored, sampled, first, second, rfl⟩

/-- There is a version for each type, if there are as many counts. -/
theorem versions_extend (same : counts.length = types.length)
    : List.Forall₂ EntityType.Extends (versions types counts) types := by
  have zipped := List.map_fst_zip (Nat.le_of_eq same.symm)
  conv => rhs; rw [← zipped]
  rw [versions, List.forall₂_map_left_iff, List.forall₂_map_right_iff, List.forall₂_same]
  exact fun pair _ => extended_extends pair.1 pair.2

/-- The versions agree with the types in turn on what does not depend on the properties. -/
theorem map_versions {β : Type} {f : EntityType → β}
    (kept : ∀ type sampled, f (extended type sampled) = f type)
    (same : counts.length = types.length)
    : (versions types counts).map f = types.map f := by
  have zipped := List.map_fst_zip (Nat.le_of_eq same.symm)
  rw [versions, List.map_map]
  conv_rhs => rw [← zipped, List.map_map]
  exact List.map_congr_left fun pair _ => kept pair.1 pair.2

/-- Requests for versions of stored types of different names are open. -/
theorem versions_pending (stored : ∀ type ∈ types, ∃ id, db.typeById? kind id = some type)
    (apart : (types.map (·.name)).Nodup) (same : counts.length = types.length)
    : (Load.fillTypes kind true numProperties).Pending db
        (((versions types counts).map (item kind · true)).map (·.call)) := by
  rw [calls_items]
  refine ⟨fun call member => ?_, nodup_targets ?_⟩
  · obtain ⟨version, listed, rfl⟩ := List.mem_map.mp member
    obtain ⟨index, there⟩ := List.mem_iff_getElem?.mp listed
    obtain ⟨type, sampled, place, _, rfl⟩ := getElem?_versions there
    obtain ⟨id, found⟩ := stored type (List.mem_of_getElem? place)
    exact .typeVersion found (extended_extends type sampled)
  · rwa [map_versions (fun _ _ => rfl) same]

/-- Items for versions of stored types of different names are open. -/
theorem updateItems_pending (stored : ∀ type ∈ types, ∃ id, db.typeById? kind id = some type)
    (apart : (types.map (·.name)).Nodup)
    : Draws (updateItems kind numProperties types : DrawM γ _) fun items =>
        (Load.fillTypes kind true numProperties).Pending db (items.map (·.call)) := by
  intro g _
  rw [run_updateItems]
  exact .answered (versions_pending stored apart (numProperties.length_samples types.length g))

end

theorem makeUp_changes (sound : db.Sound) (missing : Nat)
    : Ensures (Preparation.Reaches · name connection db)
        (makeUp kind numProperties (Server.store connection) missing : PrepareM Server γ Unit)
        fun _ p => ∃ next, p.Reaches name connection next ∧ next.Sound
          ∧ (Load.fillTypes kind true numProperties).Changes missing 0 db next := by
  unfold makeUp
  refine .bind (note_keeps _) fun _ => ?_
  refine .bind (inserts_creates missing) fun items p ⟨⟨length, pending⟩, reaches⟩ => ?_
  refine ((forM_issue_changes sound pending _).weaken fun _ p => ?_) p reaches
  rintro ⟨next, reaches, sound, created⟩
  exact ⟨next, reaches, sound, length ▸ created.ofNewTypes⟩

/-- The requests for versions of types that are synthesized are open, once the missing types are
created.
-/
theorem updates_opens (sound : db.Sound) (count : Nat)
    : Ensures (Preparation.Reaches · name connection db)
        (updates kind numProperties (Server.store connection) count : PrepareM Server γ _)
        ((Load.fillTypes kind true numProperties).Opens (count - (db.typesOf kind).length) db name
          connection) := by
  have goesOn {made : Nat} {next : Database} (sound : next.Sound)
      (changes : (Load.fillTypes kind true numProperties).Changes made 0 db next)
      : Ensures (Preparation.Reaches · name connection next)
          (do
            if (next.typesOf kind).length < count then
              throw (.tooFewTypes kind (next.typesOf kind).length count)
            PrepareM.onSource (updateItems kind numProperties ((next.typesOf kind).take count))
            : PrepareM Server γ _)
          ((Load.fillTypes kind true numProperties).Opens made db name connection) := by
    have stored (type : EntityType) (member : type ∈ (next.typesOf kind).take count)
        : ∃ id, next.typeById? kind id = some type :=
      Database.mem_typesOf_iff.mp (List.mem_of_mem_take member)
    have apart := sound.nodup_typeNames.sublist
      ((List.take_sublist count (next.typesOf kind)).map (·.name))
    refine Ensures.check rfl fun _ => Load.opens_of_pending sound changes ?_
    exact (updateItems_pending stored apart).onSource
  unfold updates
  refine Answers.ensures (.onStore (.existingTypes _)) ?_
  refine .branch (fun few => ?_) (fun enough => ?_)
  · refine .bind (makeUp_changes sound _) fun _ p ⟨next, reaches, sound, changes⟩ => ?_
    exact Answers.ensures (.onStore (.existingTypes _)) (goesOn sound changes) p reaches
  · rw [Nat.sub_eq_zero_of_le (Nat.le_of_not_lt enough)]
    exact goesOn sound (.refl _ db)

end FillTypes
end LineageLoad
