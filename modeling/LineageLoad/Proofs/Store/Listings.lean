import LineageLoad.Proofs.Store.Growth
import Mathlib.Data.List.Basic

/-!
What a sound store lists: every row with its own id, and no id and no name of a type twice. What is
found by name is therefore the row that has the name.
-/

namespace LineageLoad

/-- What each row of a table yields is what its entry does, if each row knows its own id. -/
theorem Table.filterMap_values {α β : Type} {table : Table α} {f : α → Option β}
    {g : EntityId × α → β}
    (own : ∀ (id : EntityId) row, table[id]? = some row → f row = some (g (id, row)))
    : table.values.filterMap f = table.toList.map g := by
  rw [values, List.filterMap_map, ← List.filterMap_eq_map]
  refine List.filterMap_congr fun entry member => ?_
  exact own entry.1 entry.2 (Std.ExtTreeMap.mem_toList_iff_getElem?_eq_some.mp member)

/-- No row of a table is listed twice, if each row knows its own id. -/
theorem Table.nodup_values {α : Type} {table : Table α} {f : α → Option EntityId}
    (own : ∀ (id : EntityId) row, table[id]? = some row → f row = some id)
    : table.values.Nodup := by
  rw [values, List.nodup_iff_pairwise_ne, List.pairwise_map]
  refine Std.ExtTreeMap.distinct_keys_toList.imp_of_mem fun {entry other} first second apart => ?_
  have found := own entry.1 entry.2 (Std.ExtTreeMap.mem_toList_iff_getElem?_eq_some.mp first)
  have there := own other.1 other.2 (Std.ExtTreeMap.mem_toList_iff_getElem?_eq_some.mp second)
  intro same
  refine apart (Std.LawfulEqCmp.compare_eq_iff_eq.mpr (Option.some.inj ?_))
  rw [← found, ← there, same]

namespace Database

variable {db : Database} {kind : Kind}

theorem typesOf_ne_nil_iff
    : db.typesOf kind ≠ [] ↔ ∃ id type, db.typeById? kind id = some type := by
  rw [← List.isEmpty_eq_false_iff, List.isEmpty_eq_false_iff_exists_mem]
  simp only [mem_typesOf_iff]
  exact exists_comm

theorem nodesOf_ne_nil_iff
    : db.nodesOf kind ≠ [] ↔ ∃ id node, db.nodeById? kind id = some node := by
  rw [← List.isEmpty_eq_false_iff, List.isEmpty_eq_false_iff_exists_mem]
  simp only [mem_nodesOf_iff]
  exact exists_comm

/-- The types of a kind are listed with the ids under which they stand. -/
theorem Sound.entries_types (sound : db.Sound)
    : (db.typesOf kind).filterMap (fun type => type.id.map (·, type))
        = (db.types.get kind).toList := by
  have own (id : EntityId) (type : EntityType) (found : (db.types.get kind)[id]? = some type)
      : type.id.map (·, type) = some (id, type) := by
    rw [sound.types.numbered kind id type found]
    rfl
  exact (Table.filterMap_values (g := id) own).trans (List.map_id _)

/-- The types of a kind are listed once, under different names. -/
theorem Sound.nodup_typeNames (sound : db.Sound)
    : ((db.typesOf kind).map (·.name)).Nodup := by
  rw [typesOf, Table.values, List.map_map, List.nodup_iff_pairwise_ne, List.pairwise_map]
  refine Std.ExtTreeMap.distinct_keys_toList.imp_of_mem fun {entry other} first second apart => ?_
  have found := Std.ExtTreeMap.mem_toList_iff_getElem?_eq_some.mp first
  have there := Std.ExtTreeMap.mem_toList_iff_getElem?_eq_some.mp second
  intro same
  exact apart (Std.LawfulEqCmp.compare_eq_iff_eq.mpr
    (sound.types.names kind entry.1 other.1 entry.2 other.2 found there same))

theorem Sound.nodup_types (sound : db.Sound)
    : (db.typesOf kind).Nodup :=
  Table.nodup_values (sound.types.numbered kind)

theorem Sound.nodup_nodes (sound : db.Sound)
    : (db.nodesOf kind).Nodup :=
  Table.nodup_values (sound.nodes kind).numbered

theorem Sound.ids_nodes (sound : db.Sound)
    : (db.nodesOf kind).filterMap (·.id) = (db.nodes.get kind).rows.keys := by
  rw [← Std.ExtTreeMap.map_fst_toList_eq_keys]
  exact Table.filterMap_values fun id node found => (sound.nodes kind).numbered id node found

theorem Sound.nodup_ids (sound : db.Sound)
    : ((db.nodesOf kind).filterMap (·.id)).Nodup := by
  rw [sound.ids_nodes]
  exact Std.ExtTreeMap.nodup_keys

theorem Sound.mem_ids_iff (sound : db.Sound) {id : EntityId}
    : id ∈ (db.nodesOf kind).filterMap (·.id) ↔ db.hasNode kind id = true := by
  rw [sound.ids_nodes, Std.ExtTreeMap.mem_keys, Std.ExtTreeMap.mem_iff_isSome_getElem?]
  rfl

/-- Every listed node has an id. -/
theorem Sound.length_ids (sound : db.Sound) {nodes : List Node} (listed : nodes ⊆ db.nodesOf kind)
    : (nodes.filterMap (·.id)).length = nodes.length := by
  refine List.filterMap_length_eq_length.mpr fun node member => ?_
  obtain ⟨id, found⟩ := mem_nodesOf_iff.mp (listed member)
  rw [(sound.nodes kind).numbered id node found]
  rfl

theorem Sound.ids_eq_nil_iff (sound : db.Sound)
    : (db.nodesOf kind).filterMap (·.id) = [] ↔ db.nodesOf kind = [] := by
  rw [← List.length_eq_zero_iff, sound.length_ids (List.Subset.refl _), List.length_eq_zero_iff]

theorem mem_namesInUse_iff {typeId : EntityId} {name : String}
    : (typeId, name) ∈ (db.nodesOf kind).filterMap (fun node => node.name.map (node.typeId, ·))
      ↔ ∃ node ∈ db.nodesOf kind, node.typeId = typeId ∧ node.name = some name := by
  simp only [List.mem_filterMap, Option.map_eq_some_iff, Prod.mk.injEq]
  constructor
  · rintro ⟨node, listed, _, named, same, rfl⟩
    exact ⟨node, listed, same, named⟩
  · rintro ⟨node, listed, same, named⟩
    exact ⟨node, listed, name, named, same, rfl⟩

-----------------------------------------------------------------------------------------
-- Lookups by name
-----------------------------------------------------------------------------------------

variable {id : EntityId} {type : EntityType} {node : Node} {name typeName : String}

theorem typeByName?_eq (db : Database) (kind : Kind) (name : String)
    : db.typeByName? kind name = (db.typeEntry? kind name).map (·.2) := by
  rw [typeByName?, typesOf, Table.values, List.find?_map]
  rfl

theorem Sound.typeByName?_name (sound : db.Sound) (found : db.typeById? kind id = some type)
    : db.typeByName? kind type.name = some type := by
  rw [typeByName?_eq, sound.typeEntry?_of_typeById? found]
  rfl

theorem Sound.typeIdByName?_name (sound : db.Sound) (found : db.typeById? kind id = some type)
    : db.typeIdByName? kind type.name = some id := by
  rw [typeIdByName?, sound.typeByName?_name found]
  exact sound.types.numbered kind id type found

/-- The id that a type name is resolved to stands for exactly the nodes that have the type name. -/
theorem Sound.typeName_eq_iff (sound : db.Sound) {typeId : EntityId}
    (resolved : db.typeIdByName? kind typeName = some typeId) (member : node ∈ db.nodesOf kind)
    : node.typeName = typeName ↔ node.typeId = typeId := by
  obtain ⟨id, there⟩ := mem_nodesOf_iff.mp member
  obtain ⟨own, typed, titled, _⟩ := ((sound.nodes kind).conforming id node there).typed
  constructor
  · rintro rfl
    rw [titled, sound.typeIdByName?_name typed] at resolved
    exact Option.some.inj resolved
  · rintro rfl
    obtain ⟨type, found, numbered⟩ := Option.bind_eq_some_iff.mp resolved
    obtain ⟨other, standing⟩ := mem_typesOf_iff.mp (List.mem_of_find?_eq_some found)
    cases (sound.types.numbered kind other type standing).symm.trans numbered
    cases typed.symm.trans standing
    have named := List.find?_some found
    rw [beq_iff_eq] at named
    rw [titled, named]

/-- No node has the name of a type that is not there. -/
theorem Sound.typeName_ne (sound : db.Sound) (unresolved : db.typeIdByName? kind typeName = none)
    (member : node ∈ db.nodesOf kind)
    : node.typeName ≠ typeName := by
  rintro rfl
  obtain ⟨id, there⟩ := mem_nodesOf_iff.mp member
  obtain ⟨own, typed, titled, _⟩ := ((sound.nodes kind).conforming id node there).typed
  rw [titled, sound.typeIdByName?_name typed] at unresolved
  cases unresolved

/-- The nodes of a type are those with its name: a node has the name of the type with its type id,
and no two types of the kind have one name.
-/
theorem Sound.nodesByType_eq (sound : db.Sound) (kind : Kind) (typeName : String)
    : db.nodesByType kind typeName = (db.nodesOf kind).filter (·.typeName == typeName) := by
  unfold nodesByType
  cases resolved : db.typeIdByName? kind typeName with
  | none =>
      refine (List.filter_eq_nil_iff.mpr fun node member => ?_).symm
      rw [beq_iff_eq]
      exact sound.typeName_ne resolved member
  | some typeId =>
      refine List.filter_congr fun node member => ?_
      rw [Bool.eq_iff_iff, beq_iff_eq, beq_iff_eq]
      exact (sound.typeName_eq_iff resolved member).symm

/-- A named node is found by its name and the name of its type, through the index of names. -/
theorem Sound.nodeByName?_name (sound : db.Sound) (found : db.nodeById? kind id = some node)
    (named : node.name = some name)
    : db.nodeByName? kind node.typeName name = some node := by
  obtain ⟨type, typed, titled, _⟩ := ((sound.nodes kind).conforming id node found).typed
  have indexed : (db.nodes.get kind).names[(node.typeId, name)]? = some id :=
    ((sound.nodes kind).indexed node.typeId name id).mpr ⟨node, found, rfl, named⟩
  rw [nodeByName?, titled, sound.typeIdByName?_name typed]
  dsimp only
  rw [indexed, Option.bind_some, found]

end Database

end LineageLoad
