import LineageLoad.Proofs.Store.Identity
import LineageLoad.Proofs.Store.Schemas

/-!
How the lists of rows change with their tables: new rows come last, in the order of their creation,
and a version of a row takes its place.
-/

namespace LineageLoad

-----------------------------------------------------------------------------------------
-- Tables
-----------------------------------------------------------------------------------------

namespace Table

variable {α β : Type} {last : EntityId}

theorem toList_eq_entries {table : Table α} {entries : List (EntityId × α)}
    (ascending : entries.Pairwise (·.1 < ·.1))
    (rows : ∀ id row, (id, row) ∈ entries ↔ table[id]? = some row)
    : table.toList = entries := by
  rw [← toList_eq (f := id) ascending fun id row => by rw [rows, Option.map_id, id_eq]]
  exact (List.map_id _).symm

/-- A row that is put under an id in use takes the place of the one that stood there. -/
theorem toList_insert {table : Table α} {id : EntityId} {old : α} (there : table[id]? = some old)
    (row : α)
    : (table.insert id row).toList
        = table.toList.map fun entry => if entry.1 = id then (id, row) else entry := by
  have keys (entry : EntityId × α) : (if entry.1 = id then (id, row) else entry).1 = entry.1 := by
    split
    · next same => exact same.symm
    · rfl
  refine toList_eq_entries ?ascending fun other value => ?rows
  case ascending =>
    rw [List.pairwise_map]
    refine Std.ExtTreeMap.ordered_keys_toList.imp fun {first second} below => ?_
    rw [keys, keys]
    exact Std.compare_eq_lt.mp below
  case rows =>
    simp only [List.mem_map, Prod.exists, Std.ExtTreeMap.mem_toList_iff_getElem?_eq_some,
      Std.ExtTreeMap.getElem?_insert, Std.LawfulEqCmp.compare_eq_iff_eq]
    constructor
    · rintro ⟨key, stood, found, same⟩
      split at same
      · cases same
        rw [if_pos rfl]
      · next elsewhere =>
          cases same
          rw [if_neg (Ne.symm elsewhere), found]
    · intro found
      split at found
      · next here =>
          cases found
          subst here
          exact ⟨id, old, there, if_pos rfl⟩
      · next elsewhere => exact ⟨other, value, found, if_neg (Ne.symm elsewhere)⟩

/-- A row takes its place among the values as well, if no two rows are equal. -/
theorem values_insert {table : Table α} {id : EntityId} {old row : α} {before after : List α}
    (distinct : table.values.Nodup) (there : table[id]? = some old)
    (listed : table.values = before ++ old :: after)
    : values (table.insert id row) = before ++ row :: after := by
  obtain ⟨first, rest, split, rfl, tail⟩ := List.map_eq_append_iff.mp listed
  obtain ⟨entry, last, rfl, same, rfl⟩ := List.map_eq_cons_iff.mp tail
  have here : (id, old) ∈ table.toList := Std.ExtTreeMap.mem_toList_iff_getElem?_eq_some.mpr there
  have found : entry ∈ table.toList := by simp [split]
  obtain rfl : entry = (id, old) := List.inj_on_of_nodup_map distinct found here same
  have keys : (table.toList.map (·.1)).Nodup := by
    rw [Std.ExtTreeMap.map_fst_toList_eq_keys]
    exact Std.ExtTreeMap.nodup_keys
  rw [split, List.map_append, List.map_cons, List.nodup_middle, List.nodup_cons,
    List.mem_append, not_or] at keys
  have stays {entries : List (EntityId × α)} (apart : id ∉ entries.map (·.1))
      : (entries.map fun entry => if entry.1 = id then (id, row) else entry) = entries := by
    refine (List.map_congr_left fun other member => if_neg fun same => ?_).trans (List.map_id _)
    exact apart (List.mem_map.mpr ⟨other, member, same⟩)
  rw [values, toList_insert there, split, List.map_append, List.map_cons, stays keys.1.1,
    stays keys.1.2, if_pos rfl, List.map_append, List.map_cons]

/-- New rows that take the next ids come after those that were there. -/
theorem toList_added {before after : Table β} {items : List α} {row : EntityId → α → β}
    (bounded : ∀ (id : EntityId) old, before[id]? = some old → id ≤ last)
    (rows
      : ∀ id : EntityId,
        after[id]? = ((successive last items id).map (row id)).or before[id]?)
    : after.toList
        = before.toList ++ (enumerated last items).map fun entry => (entry.1, row entry.1 entry.2)
      := by
  refine toList_eq_entries ?ascending fun id value => ?rows
  case ascending =>
    refine List.pairwise_append.mpr ⟨?_, ?_, fun old stood new created => ?_⟩
    · exact Std.ExtTreeMap.ordered_keys_toList.imp Std.compare_eq_lt.mp
    · exact List.pairwise_map.mpr (enumerated_ascending last items)
    · obtain ⟨entry, listed, rfl⟩ := List.mem_map.mp created
      have beyond := (successive_bounds (mem_enumerated_iff.mp listed)).1
      have within := bounded old.1 old.2 (Std.ExtTreeMap.mem_toList_iff_getElem?_eq_some.mp stood)
      exact Int.lt_of_le_of_lt within beyond
  case rows =>
    simp only [rows, List.mem_append, Std.ExtTreeMap.mem_toList_iff_getElem?_eq_some, List.mem_map,
      Prod.exists, Prod.mk.injEq, mem_enumerated_iff]
    cases created : successive last items id with
    | none =>
        rw [Option.map_none, Option.none_or]
        refine or_iff_left ?_
        rintro ⟨_, item, found, rfl, _⟩
        cases created.symm.trans found
    | some item =>
        rw [Option.map_some, Option.some_or, Option.some.injEq]
        constructor
        · rintro (stood | ⟨_, _, found, rfl, same⟩)
          -- Rows that were there stand under earlier ids.
          · exact absurd (bounded id value stood) (Int.not_le.mpr (successive_bounds created).1)
          · cases created.symm.trans found
            exact same
        · exact fun same => .inr ⟨id, item, created, rfl, same⟩

end Table

-----------------------------------------------------------------------------------------
-- The number of types
-----------------------------------------------------------------------------------------

namespace Database

/-- Every created type is of one kind, by induction on the types. -/
theorem length_ofKind (entries : List (EntityId × Kind × String))
    : (ofKind .artifact entries).length + (ofKind .execution entries).length
        + (ofKind .context entries).length = entries.length := by
  induction entries with
  | nil => rfl
  | cons entry rest ih =>
      obtain ⟨id, kind, name⟩ := entry
      unfold ofKind at ih ⊢
      cases kind <;> simp [← ih] <;> omega

/-- The type id given last is the number of types of all kinds. -/
theorem ToldBy.lastTypeId_eq {db : Database} {log : List Answer} (told : db.ToldBy log)
    (sound : db.Sound)
    : db.lastTypeId
      = ((db.typesOf .artifact).length + (db.typesOf .execution).length
          + (db.typesOf .context).length : Nat) := by
  have listed (kind : Kind)
      : (db.typesOf kind).length = (ofKind kind (enumerated 0 (createdTypes log))).length := by
    have same := congrArg List.length (told.map_typesOf sound kind)
    rwa [List.length_map, List.length_map] at same
  rw [listed, listed, listed, length_ofKind, length_enumerated, told.types.lastTypeId]

-----------------------------------------------------------------------------------------
-- Versions of rows
-----------------------------------------------------------------------------------------

/-- Versions of rows that are listed one after the other take their places if each of them does, and
nothing else changes then. By induction on the versions.
-/
theorem serveAll_versions {α : Type} (rows : Database → List α) (put : α → Call)
    (keeps : Database → Database → Prop) {replaces : α → α → Prop} (refl : ∀ db, keeps db db)
    (trans : ∀ {first second third}, keeps first second → keeps second third → keeps first third)
    (step
      : ∀ {db : Database}, db.Sound → ∀ {before after version stored},
        rows db = before ++ stored :: after → replaces version stored →
        let next := (Database.serve (put version) db).2
        rows next = before ++ version :: after ∧ keeps db next)
    {db : Database} (sound : db.Sound) {before olds after versions : List α}
    (listed : rows db = before ++ olds ++ after)
    (extend : List.Forall₂ replaces versions olds)
    : let next := db.serveAll (versions.map put)
      rows next = before ++ versions ++ after ∧ keeps db next := by
  induction extend generalizing db before with
  | nil => exact ⟨listed, refl db⟩
  | @cons version old versions olds first rest ih =>
      have listed : rows db = before ++ old :: (olds ++ after) := by simp [listed]
      obtain ⟨replaced, kept⟩ := step sound listed first
      rw [List.append_cons, ← List.append_assoc] at replaced
      obtain ⟨lists, others⟩ := ih (sound.serve _) replaced
      exact ⟨lists.trans (by simp), trans kept others⟩

end Database

-----------------------------------------------------------------------------------------
-- Types
-----------------------------------------------------------------------------------------

namespace Database

variable {db next : Database} {kind : Kind} {type stored : EntityType}

/-- New types are listed after those that were there, under the next ids. -/
theorem AddsTypes.typesOf {types : List EntityType} (adds : db.AddsTypes kind types next)
    (sound : db.Sound)
    : next.typesOf kind
        = db.typesOf kind
          ++ (enumerated db.lastTypeId types).map fun entry => entry.2.under entry.1 := by
  rw [Database.typesOf, Table.values, Table.toList_added (sound.types.bounded kind) adds.rows,
    List.map_append, List.map_map]
  rfl

/-- A version of a type is served by putting it in the place of the type. -/
theorem Sound.serve_typeVersion_set (sound : db.Sound) {id : EntityId}
    (found : db.typeById? kind id = some stored) (version : type.Extends stored)
    : Database.serve (.putType kind type true) db = (.ok id, db.setType kind id type) := by
  have same : { stored with properties := stored.properties ∪ type.properties } = type := by
    rw [version.covers.union_given, ← version.id, ← version.name]
  rw [sound.serve_typeVersion_eq found version, same]

/-- A version of a listed type takes its place in the list, and nothing else changes. -/
theorem Sound.serve_typeVersion_listed (sound : db.Sound) {before after : List EntityType}
    (listed : db.typesOf kind = before ++ stored :: after) (version : type.Extends stored)
    : let next := (Database.serve (.putType kind type true) db).2
      next.typesOf kind = before ++ type :: after
        ∧ next = { db with types := db.types.set kind (next.types.get kind) } := by
  obtain ⟨id, found⟩ : ∃ id, db.typeById? kind id = some stored :=
    mem_typesOf_iff.mp (listed ▸ List.mem_append_right before List.mem_cons_self)
  rw [sound.serve_typeVersion_set found version]
  refine ⟨?_, by simp only [setType, PerKind.get_set_self]⟩
  rw [typesOf, setType, PerKind.get_set_self]
  exact Table.values_insert sound.nodup_types found listed

/-- Versions of types that are listed one after the other take their places, and nothing else
changes.
-/
theorem Sound.serveAll_typeVersions_listed (sound : db.Sound)
    {before olds after versions : List EntityType}
    (listed : db.typesOf kind = before ++ olds ++ after)
    (extend : List.Forall₂ EntityType.Extends versions olds)
    : let next := db.serveAll (versions.map (.putType kind · true))
      next.typesOf kind = before ++ versions ++ after
        ∧ next = { db with types := db.types.set kind (next.types.get kind) } := by
  refine serveAll_versions (·.typesOf kind) (.putType kind · true)
    (fun db next => next = { db with types := db.types.set kind (next.types.get kind) })
    (fun db => ?_) (fun {first second third} sooner later => ?_)
    (fun sound => sound.serve_typeVersion_listed) sound listed extend
  · rw [PerKind.set_get_self]
  · rw [later, sooner, PerKind.set_set, PerKind.get_set_self]

-----------------------------------------------------------------------------------------
-- Nodes
-----------------------------------------------------------------------------------------

/-- New nodes are listed after those that were there, under the next ids. -/
theorem AddsNodes.nodesOf {nodes : List Node} (adds : db.AddsNodes kind nodes next)
    (sound : db.Sound)
    : next.nodesOf kind
        = db.nodesOf kind
          ++ (enumerated (db.nodes.get kind).lastId nodes).map fun entry =>
            entry.2.under entry.1 := by
  rw [Database.nodesOf, Table.values, Table.toList_added (sound.nodes kind).bounded adds.rows,
    List.map_append, List.map_map]
  rfl

end Database
end LineageLoad
