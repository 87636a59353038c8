import LineageLoad.Proofs.Workload.NewTypes

/-!
What a load that updates types does: it makes up those that are missing, adds properties to the
first types of the kind under names that they do not have, and leaves everything else.
-/

namespace LineageLoad
namespace FillTypes

variable {γ : Type} [WordSource γ] {kind : Kind} {numProperties : Sampler} {db : Database}

-----------------------------------------------------------------------------------------
-- Synthesis
-----------------------------------------------------------------------------------------

/-- The types that are missing are made up as new ones. -/
theorem run_makeUp (kind : Kind) (numProperties : Sampler) (missing : Nat) (sound : db.Sound)
    (source : γ) (notes : List Note)
    : ∃ made next after,
        made.length = missing
        ∧ db.AddsTypes kind made next
        ∧ next.Sound
        ∧ (makeUp kind numProperties Database.store missing).run { store := db, source, notes }
          = (.ok (),
            { store := next, source := (numProperties.samples missing source).2, notes := after })
      := by
  obtain ⟨numbers, length, _, pending, run⟩ := run_inserts kind numProperties missing db source
    (notes ++ [.makingUpTypes kind missing])
  have drawn : (numProperties.samples missing source).1.length = numbers.length :=
    (numProperties.length_samples missing source).trans length.symm
  have noted : (PrepareM.note (.makingUpTypes kind missing) : PrepareM Database γ Unit).run
      { store := db, source, notes }
      = (.ok (), { store := db, source, notes := notes ++ [.makingUpTypes kind missing] }) := rfl
  have issued : ∃ after,
      (makeUp kind numProperties Database.store missing).run { store := db, source, notes }
      = (.ok (),
        { store := db.serveAll (((newTypes numbers (numProperties.samples missing source).1).map
            (item kind · false)).map (·.call))
          source := (numProperties.samples missing source).2
          notes := after }) := by
    unfold makeUp
    rw [run_bind_of_ok noted, run_bind_of_ok run]
    exact run_forM_issue _ _ db _ _
  obtain ⟨after, issued⟩ := issued
  exact ⟨_, _, after, (length_newTypes drawn).trans length, addsTypes_items pending sound,
    sound.serveAll _, issued⟩

/-- Updates are synthesized for the first types of the kind, after those that are missing are made
up. Counts are drawn for the missing types first.
-/
theorem run_updates (kind : Kind) (numProperties : Sampler) (count : Nat) (sound : db.Sound)
    (source : γ) (notes : List Note)
    : let missing := count - (db.typesOf kind).length
      let drawn := numProperties.samples count (numProperties.samples missing source).2
      ∃ made next after,
        made.length = missing
        ∧ db.AddsTypes kind made next
        ∧ next.Sound
        ∧ count ≤ (next.typesOf kind).length
        ∧ (count = 0 → next = db ∧ after = notes)
        ∧ (updates kind numProperties Database.store count).run { store := db, source, notes }
          = (.ok ((versions ((next.typesOf kind).take count) drawn.1).map (item kind · true)),
            { store := next, source := drawn.2, notes := after }) := by
  intro missing drawn
  have existing (db : Database)
      : (Database.store.existingTypes kind).run db = (.ok (db.typesOf kind), db) := rfl
  -- Once there are enough types, the rest of the preparation only draws.
  have goesOn {next : Database} (enough : count ≤ (next.typesOf kind).length) (source : γ)
      (notes : List Note)
      : (do
            if (next.typesOf kind).length < count then
              throw (.tooFewTypes kind (next.typesOf kind).length count)
            PrepareM.onSource (updateItems kind numProperties ((next.typesOf kind).take count))
            : PrepareM Database γ _).run { store := next, source, notes }
        = (.ok ((versions ((next.typesOf kind).take count) (numProperties.samples count source).1
            ).map (item kind · true)),
          { store := next, source := (numProperties.samples count source).2, notes }) := by
    have run := run_updateItems kind numProperties ((next.typesOf kind).take count) source
    rw [List.length_take, Nat.min_eq_left enough] at run
    rw [if_neg (Nat.not_lt.mpr enough)]
    exact PrepareM.run_onSource run next notes
  unfold updates
  rw [run_bind_of_ok (PrepareM.run_onStore (existing db) source notes)]
  by_cases few : (db.typesOf kind).length < count
  · obtain ⟨made, next, after, length, adds, kept, run⟩ :=
      run_makeUp kind numProperties missing sound source notes
    have enough : count ≤ (next.typesOf kind).length := by
      rw [adds.typesOf sound, List.length_append, List.length_map, length_enumerated, length]
      omega
    refine ⟨made, next, after, length, adds, kept, enough, fun none => by omega, ?_⟩
    rw [if_pos few, run_bind_of_ok run,
      run_bind_of_ok (PrepareM.run_onStore (existing next) _ after)]
    exact goesOn enough _ after
  · have enough := Nat.le_of_not_lt few
    have nothing : missing = 0 := Nat.sub_eq_zero_of_le enough
    refine ⟨[], db, notes, nothing.symm, .nil db kind, sound, enough, fun _ => ⟨rfl, rfl⟩, ?_⟩
    have same : drawn = numProperties.samples count source := by
      change numProperties.samples count (numProperties.samples missing source).2 = _
      rw [nothing]
      rfl
    rw [if_neg few, same]
    exact goesOn enough source notes

-----------------------------------------------------------------------------------------
-- Whole loads
-----------------------------------------------------------------------------------------

/-- What a load that updates types does, whatever words are drawn and after any calls. It is always
prepared. Then there are at least as many types of the kind as operations; those that are made up
come after those that were there, and nothing else changes. Each item is for the type of the kind in
its place. It asks for the type as it is with as many further texts as was drawn for it, within the
range, but one at least, under names that the type does not have. Executed in their order, all items
succeed. Each of these types is then as it was asked for, in its place and with its id and its name,
and nothing else changes.
-/
theorem prepare_typeUpdates (calls : List Call) (kind : Kind) (numProperties : Sampler)
    (count : Nat) (source : γ) (held : List WorkItem) (isPrepared : Bool)
    : let db := Database.empty.serveAll calls
      let missing := count - (db.typesOf kind).length
      let workload : GeneratedWorkload (Load Sampler) γ :=
        ⟨.fillTypes kind true numProperties, count, source, held, isPrepared⟩
      let prepared := workload.prepare Database.store db
      let counts := (numProperties.samples count (numProperties.samples missing source).2).1
      let base := prepared.2.2
      let final := prepared.2.1.executeAll Database.store (List.range count) base
      prepared.1.1 = .ok ()
        ∧ (∃ made, made.length = missing ∧ base.typesOf kind = db.typesOf kind ++ made)
        ∧ (base.typesOf kind).length = max (db.typesOf kind).length count
        ∧ base = { db with
            types := db.types.set kind (base.types.get kind), lastTypeId := base.lastTypeId }
        ∧ ∃ types,
            types.length = count
            ∧ prepared.2.1.items.map (·.call) = types.map (.putType kind · true)
            ∧ (∀ (index : Nat) type, types[index]? = some type →
                ∃ stored sampled added,
                  (base.typesOf kind)[index]? = some stored
                  ∧ counts[index]? = some sampled
                  ∧ numProperties.minimum ≤ sampled ∧ sampled ≤ numProperties.maximum
                  ∧ type.id = stored.id
                  ∧ type.name = stored.name
                  ∧ added.length = max sampled 1
                  ∧ FirstNumbers
                      (fun k => stored.properties.size ≤ k
                        ∧ numbered "add_p-" k ∉ stored.properties) added
                  ∧ type.properties.size = stored.properties.size + max sampled 1
                  ∧ ∀ name : String, type.properties[name]?
                      = if name ∈ added.map (numbered "add_p-") then some .string
                        else stored.properties[name]?)
            ∧ (∀ (index : Nat) item, prepared.2.1.items[index]? = some item →
                (prepared.2.1.execute index Database.store
                  (prepared.2.1.executeAll Database.store (List.range index) base)).1
                = .ok item.bytes)
            ∧ final.typesOf kind = types ++ (base.typesOf kind).drop count
            ∧ (final.typesOf kind).map (fun type => (type.id, type.name))
              = (base.typesOf kind).map (fun type => (type.id, type.name))
            ∧ final = { base with types := base.types.set kind (final.types.get kind) } := by
  intro db missing workload prepared counts base final
  have sound : db.Sound := Database.empty_sound.serveAll calls
  obtain ⟨made, next, after, length, adds, kept, enough, idle, run⟩ :=
    run_updates kind numProperties count sound source []
  have first : ((next.typesOf kind).take count).length = count := by
    rw [List.length_take, Nat.min_eq_left enough]
  have drawn : counts.length = ((next.typesOf kind).take count).length :=
    (numProperties.length_samples count _).trans first.symm
  have extend := versions_extend drawn
  have pending : (Load.fillTypes kind true numProperties).Pending next
      (((versions ((next.typesOf kind).take count) counts).map (item kind · true)).map (·.call)) :=
    versions_pending
      (fun type member => Database.mem_typesOf_iff.mp (List.mem_of_mem_take member))
      (kept.nodup_typeNames.sublist ((List.take_sublist count (next.typesOf kind)).map (·.name)))
      drawn
  have created : (versions ((next.typesOf kind).take count) counts).length = count :=
    extend.length_eq.trans first
  obtain ⟨succeeds, same, left, executes, leaves⟩ :=
    GeneratedWorkload.prepare_executes workload run ((List.length_map _).trans created) idle kept
      pending
  subst left
  have grown := adds.typesOf sound
  have split : base.typesOf kind
      = [] ++ (base.typesOf kind).take count ++ (base.typesOf kind).drop count :=
    (List.take_append_drop count _).symm
  obtain ⟨listed, frame⟩ := kept.serveAll_typeVersions_listed split extend
  rw [← calls_items, ← leaves] at listed frame
  refine ⟨congrArg Prod.fst succeeds, ⟨_, ?made, grown⟩, ?length, adds.frame,
    versions ((base.typesOf kind).take count) counts, created, ?calls,
    fun index type found => ?versions, ?executes, listed, ?identities, frame⟩
  case made => rw [List.length_map, length_enumerated, length]
  case length =>
    rw [grown, List.length_append, List.length_map, length_enumerated, length]
    omega
  case calls => rw [same, calls_items]
  case versions =>
    obtain ⟨stored, sampled, there, counted, rfl⟩ := getElem?_versions found
    obtain ⟨least, most⟩ := numProperties.samples_bounds count _ sampled
      (List.mem_of_getElem? counted)
    obtain ⟨added, many, fresh, size, found⟩ :=
      exists_addProperties (max sampled 1) stored.properties.size stored.properties
    rw [List.getElem?_take, Option.ite_none_right_eq_some] at there
    exact ⟨stored, sampled, added, there.2, counted, least, most, rfl, rfl, many, fresh, size,
      found⟩
  case executes =>
    intro index item found
    rw [same] at found
    exact executes index item found
  case identities =>
    rw [listed, List.nil_append, List.map_append, map_versions (fun _ _ => rfl) drawn,
      ← List.map_append, List.take_append_drop]

end FillTypes
end LineageLoad
