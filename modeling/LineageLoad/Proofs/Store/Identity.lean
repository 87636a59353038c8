import LineageLoad.Proofs.Store.History
import Mathlib.Data.List.Sort

/-!
Ids are dense and permanent: what a store creates takes the next id of its sequence and stays under
it, so that lists are in the order of creation.
-/

namespace LineageLoad

-----------------------------------------------------------------------------------------
-- Numbered items
-----------------------------------------------------------------------------------------

section

variable {α : Type} {last id : EntityId} {items : List α} {item : α}

/-- Items with the ids after (last) that they take in their order. -/
def enumerated (last : EntityId) : List α → List (EntityId × α)
  | [] => []
  | item :: rest => (last + 1, item) :: enumerated (last + 1) rest

theorem mem_enumerated_iff
    : (id, item) ∈ enumerated last items ↔ successive last items id = some item := by
  induction items generalizing last with
  | nil => simp [enumerated, successive]
  | cons first rest ih =>
      rw [enumerated, successive, List.mem_cons, ih, Prod.mk.injEq]
      split
      · next here =>
          rw [successive_eq_none (Int.le_of_eq here)]
          simp [here, eq_comm]
      · next elsewhere => simp [elsewhere]

theorem length_enumerated (last : EntityId) (items : List α)
    : (enumerated last items).length = items.length := by
  induction items generalizing last with
  | nil => rfl
  | cons item rest ih => exact congrArg Nat.succ (ih (last + 1))

theorem map_snd_enumerated (last : EntityId) (items : List α)
    : (enumerated last items).map (·.2) = items := by
  induction items generalizing last with
  | nil => rfl
  | cons item rest ih => exact congrArg (item :: ·) (ih (last + 1))

theorem enumerated_ascending (last : EntityId) (items : List α)
    : (enumerated last items).Pairwise (·.1 < ·.1) := by
  induction items generalizing last with
  | nil => exact .nil
  | cons first rest ih =>
      refine List.pairwise_cons.mpr ⟨fun entry member => ?_, ih (last + 1)⟩
      exact (successive_bounds (mem_enumerated_iff.mp member)).1

end

-----------------------------------------------------------------------------------------
-- Tables
-----------------------------------------------------------------------------------------

/-- A table lists entries if these are in ascending order and it has exactly their rows. -/
theorem Table.toList_eq {α β : Type} {table : Table α} {f : α → β} {entries : List (EntityId × β)}
    (ascending : entries.Pairwise (·.1 < ·.1))
    (rows : ∀ id value, (id, value) ∈ entries ↔ table[id]?.map f = some value)
    : table.toList.map (fun entry => (entry.1, f entry.2)) = entries := by
  have ordered : (table.toList.map fun entry => (entry.1, f entry.2)).Pairwise (·.1 < ·.1) :=
    List.pairwise_map.mpr (Std.ExtTreeMap.ordered_keys_toList.imp Std.compare_eq_lt.mp)
  have : Std.Irrefl (α := EntityId × β) (·.1 < ·.1) := ⟨fun _ => Int.lt_irrefl _⟩
  have : Std.Antisymm (α := EntityId × β) (·.1 < ·.1) :=
    ⟨fun _ _ below above => absurd below (Int.lt_asymm above)⟩
  refine ordered.eq_of_mem_iff ascending fun (id, value) => ?_
  simp only [rows, List.mem_map, Option.map_eq_some_iff, Prod.exists, Prod.mk.injEq,
    Std.ExtTreeMap.mem_toList_iff_getElem?_eq_some]
  constructor
  · rintro ⟨_, row, found, rfl, rfl⟩
    exact ⟨row, found, rfl⟩
  · rintro ⟨row, found, rfl⟩
    exact ⟨id, row, found, rfl, rfl⟩

theorem Table.map_values {α β : Type} {table : Table α} {f : α → β} {g : EntityId × α → β}
    (own : ∀ (id : EntityId) row, table[id]? = some row → f row = g (id, row))
    : table.values.map f = table.toList.map g := by
  rw [values, List.map_map]
  refine List.map_congr_left fun entry member => ?_
  exact own entry.1 entry.2 (Std.ExtTreeMap.mem_toList_iff_getElem?_eq_some.mp member)

namespace NodeTable

/-- The ids under which nodes are stored one after another: their own, or the next ones after
(last).
-/
def idsAfter (last : EntityId) : List Node → List EntityId
  | [] => []
  | node :: rest =>
    match node.id with
    | some id => id :: idsAfter last rest
    | none => (last + 1) :: idsAfter (last + 1) rest

theorem idsAfter_map {f : Node → Node} (same : ∀ node, (f node).id = node.id) (last : EntityId)
    (nodes : List Node)
    : idsAfter last (nodes.map f) = idsAfter last nodes := by
  induction nodes generalizing last with
  | nil => rfl
  | cons node rest ih => simp only [List.map_cons, idsAfter, same, ih]

/-- By induction on the nodes. -/
theorem putAll_fst (table : NodeTable) (nodes : List Node)
    : (table.putAll nodes).1 = idsAfter table.lastId nodes := by
  induction nodes generalizing table with
  | nil => rfl
  | cons node rest ih =>
      have later := ih (table.put node).2
      rw [put_lastId] at later
      rw [putAll, idsAfter]
      dsimp only
      rw [later, put_fst]
      cases node.id <;> rfl

end NodeTable

namespace Database

variable {db next : Database} {kind : Kind} {log : List Answer}

-----------------------------------------------------------------------------------------
-- Lists
-----------------------------------------------------------------------------------------

/-- The entries of a kind, with their names. -/
def ofKind (kind : Kind) (entries : List (EntityId × Kind × String)) : List (EntityId × String) :=
  entries.filterMap fun (id, other, name) => if other = kind then some (id, name) else none

/-- The types of a kind are listed in the order of their creation. -/
theorem ToldBy.map_typesOf (told : db.ToldBy log) (sound : db.Sound) (kind : Kind)
    : (db.typesOf kind).map (fun type => (type.id, type.name))
      = (ofKind kind (enumerated 0 (createdTypes log))).map fun (id, name) => (some id, name) := by
  have ascending : (ofKind kind (enumerated 0 (createdTypes log))).Pairwise (·.1 < ·.1) := by
    refine (enumerated_ascending 0 _).filterMap _ fun first second below => ?_
    simp only [Option.ite_none_right_eq_some, Option.some.injEq]
    rintro _ ⟨_, rfl⟩ _ ⟨_, rfl⟩
    exact below
  have rows (id : EntityId) (name : String)
      : (id, name) ∈ ofKind kind (enumerated 0 (createdTypes log))
        ↔ (db.types.get kind)[id]?.map (·.name) = some name := by
    rw [Option.map_eq_some_iff, ofKind]
    refine Iff.trans ?_ (told.types.rows kind id name)
    simp only [List.mem_filterMap, Prod.exists, mem_enumerated_iff, Option.ite_none_right_eq_some,
      Option.some.injEq, Prod.mk.injEq]
    refine ⟨?_, fun found => ⟨id, kind, name, found, rfl, rfl, rfl⟩⟩
    rintro ⟨_, _, _, found, rfl, rfl, rfl⟩
    exact found
  have numbered (id : EntityId) (type : EntityType) (found : (db.types.get kind)[id]? = some type)
      : (type.id, type.name) = (some id, type.name) := by
    rw [sound.types.numbered kind id type found]
  rw [typesOf, Table.map_values (g := fun entry => (some entry.1, entry.2.name)) numbered,
    ← Table.toList_eq ascending rows, List.map_map]
  rfl

/-- The nodes of a kind are listed in the order of their creation. -/
theorem ToldBy.map_nodesOf (told : db.ToldBy log) (sound : db.Sound) (kind : Kind)
    : (db.nodesOf kind).map (fun node => (node.id, node.typeId))
      = (enumerated 0 (createdNodes kind log)).map fun (id, typeId) => (some id, typeId) := by
  have rows (id typeId : EntityId)
      : (id, typeId) ∈ enumerated 0 (createdNodes kind log)
        ↔ (db.nodes.get kind).rows[id]?.map (·.typeId) = some typeId := by
    rw [mem_enumerated_iff, (told.nodes kind).rows]
  have numbered (id : EntityId) (node : Node) (found : (db.nodes.get kind).rows[id]? = some node)
      : (node.id, node.typeId) = (some id, node.typeId) := by
    rw [(sound.nodes kind).numbered id node found]
  rw [nodesOf, Table.map_values (g := fun entry => (some entry.1, entry.2.typeId)) numbered,
    ← Table.toList_eq (enumerated_ascending 0 _) rows, List.map_map]
  rfl

theorem commit_eq_ok {α : Type} {outcome : Except StoreError (α × Database)} {reply : α}
    (accepted : (db.commit outcome).1 = .ok reply)
    : ∃ next, outcome = .ok (reply, next) :=
  ⟨_, of_commit_eq_ok (Prod.ext accepted rfl)⟩

/-- A type that was created stays under its id, with its kind and its name. -/
theorem ToldBy.typeName_kept {more : List Answer} (told : db.ToldBy log)
    (later : next.ToldBy (log ++ more)) {id : EntityId} {type : EntityType}
    (found : db.typeById? kind id = some type)
    : ∃ version, next.typeById? kind id = some version ∧ version.name = type.name := by
  have there := (told.types.rows kind id type.name).mpr ⟨type, found, rfl⟩
  exact (later.types.rows kind id type.name).mp
    (successive_mono (createdTypes_append log more) there)

/-- A node that was created stays under its id, with its kind and its type. -/
theorem ToldBy.typeId_kept {more : List Answer} (told : db.ToldBy log)
    (later : next.ToldBy (log ++ more)) {id : EntityId} {node : Node}
    (found : db.nodeById? kind id = some node)
    : ∃ version, next.nodeById? kind id = some version ∧ version.typeId = node.typeId := by
  have there : successive 0 (createdNodes kind log) id = some node.typeId := by
    rw [← (told.nodes kind).rows]
    exact congrArg (Option.map (·.typeId)) found
  have first : createdNodes kind log <+: createdNodes kind (log ++ more) := by
    rw [createdNodes_append]
    exact List.prefix_append _ _
  have kept := successive_mono first there
  rw [← (later.nodes kind).rows] at kept
  exact Option.map_eq_some_iff.mp kept

/-- Ids are dense and permanent, after any calls, accepted or refused. The ids of types are those
from 1 to the number of types that were created, each used by one kind only, and the ids of the
nodes of a kind are those from 1 to the number of its nodes that were created. A new type and a new
node take the next id, so that both are listed in the order of their creation. Later calls keep each
type under its id with its kind and its name, and each node with its kind and its type.
-/
theorem serveAll_empty_identity (calls : List Call)
    : let db := empty.serveAll calls
      let log := store.answers calls .empty
      let types := createdTypes log
      ((∀ id, (∃ kind, (db.typeById? kind id).isSome) ↔ 1 ≤ id ∧ id ≤ types.length)
        ∧ (∀ kind other id,
            (db.typeById? kind id).isSome → (db.typeById? other id).isSome → kind = other)
        ∧ ∀ kind id, db.hasNode kind id ↔ 1 ≤ id ∧ id ≤ (createdNodes kind log).length)
      ∧ ((∀ kind type canAddFields id,
            (serve (.putType kind type canAddFields) db).1 = .ok id →
              ((kind, type.name) ∉ types → id = types.length + 1)
              ∧ ((kind, type.name) ∈ types → (db.typeById? kind id).map (·.name) = some type.name))
        ∧ ∀ kind nodes ids, (serve (.putNodes kind nodes) db).1 = .ok ids →
            ids = NodeTable.idsAfter (createdNodes kind log).length nodes)
      ∧ (∀ kind,
          (serve (.getTypes kind) db).1.map (List.map fun type => (type.id, type.name))
            = .ok ((ofKind kind (enumerated 0 types)).map fun (id, name) => (some id, name))
          ∧ (serve (.getNodes kind) db).1.map (List.map fun node => (node.id, node.typeId))
            = .ok ((enumerated 0 (createdNodes kind log)).map fun (id, typeId) =>
              (some id, typeId)))
      ∧ ∀ more,
          let later := db.serveAll more
          (∀ kind id type, db.typeById? kind id = some type →
            ∃ version, later.typeById? kind id = some version ∧ version.name = type.name)
          ∧ ∀ kind id node, db.nodeById? kind id = some node →
            ∃ version, later.nodeById? kind id = some version
              ∧ version.typeId = node.typeId ∧ version.typeName = node.typeName := by
  intro db log types
  have sound : db.Sound := empty_sound.serveAll calls
  have told : db.ToldBy log := by simpa using empty_toldBy.serveAll empty_sound calls
  have typeIds (id : EntityId)
      : (∃ kind, (db.typeById? kind id).isSome) ↔ 1 ≤ id ∧ id ≤ types.length := by
    have stands : (∃ kind, (db.typeById? kind id).isSome)
        ↔ ∃ entry, successive 0 types id = some entry := by
      simp only [Option.isSome_iff_exists, Prod.exists]
      refine exists_congr fun kind => ⟨fun ⟨type, found⟩ => ?_, fun ⟨name, found⟩ => ?_⟩
      · exact ⟨type.name, (told.types.rows kind id _).mpr ⟨type, found, rfl⟩⟩
      · exact ((told.types.rows kind id name).mp found).imp fun _ => And.left
    rw [stands, exists_successive_iff, Int.zero_add]
    rfl
  refine ⟨⟨typeIds, fun kind other id found there => ?shared,
      fun kind id => (told.nodes kind).isSome_iff⟩,
    ⟨fun kind type canAddFields id stored => ?newType, fun kind nodes ids stored => ?newNodes⟩,
    fun kind => ⟨?types, ?nodes⟩, fun more => ?kept⟩
  case shared =>
    obtain ⟨type, found⟩ := Option.isSome_iff_exists.mp found
    obtain ⟨twin, there⟩ := Option.isSome_iff_exists.mp there
    exact sound.types.kinds kind other id type twin found there
  case newType =>
    obtain ⟨next, accepted⟩ := commit_eq_ok stored
    have member
        : (kind, type.name) ∈ types
          ↔ ∃ id stored, db.typeById? kind id = some stored ∧ stored.name = type.name :=
      told.types.mem_iff
    cases (putType_eq_ok accepted).2 with
    | created absent =>
        refine ⟨fun _ => congrArg (· + 1) told.types.lastTypeId, fun old => ?_⟩
        obtain ⟨_, _, found, named⟩ := member.mp old
        exact absurd named (name_ne_of_typeEntry?_eq_none absent found)
    | extended found =>
        obtain ⟨found, named⟩ := typeById?_of_entry found
        refine ⟨fun new => absurd (member.mpr ⟨_, _, found, named⟩) new, fun _ => ?_⟩
        rw [found]
        exact congrArg some named
  case newNodes =>
    obtain ⟨next, accepted⟩ := commit_eq_ok stored
    obtain ⟨_, _, rfl, _⟩ := putNodes_eq_ok_iff.mp accepted
    rw [NodeTable.putAll_fst, NodeTable.idsAfter_map (f := db.withTypeName kind) (fun _ => rfl),
      (told.nodes kind).lastId]
  case types => exact congrArg Except.ok (told.map_typesOf sound kind)
  case nodes => exact congrArg Except.ok (told.map_nodesOf sound kind)
  case kept =>
    intro later
    have kept : later.Sound := sound.serveAll more
    have follows : later.ToldBy (log ++ store.answers more db) := told.serveAll sound more
    refine ⟨fun kind id type found => told.typeName_kept follows found,
      fun kind id node found => ?_⟩
    obtain ⟨version, there, same⟩ := told.typeId_kept follows found
    -- The names of the types are those of the types with these ids, which keep their names.
    obtain ⟨type, typed, titled, _⟩ := ((sound.nodes kind).conforming id node found).typed
    obtain ⟨last, typedLater, titledLater, _⟩ :=
      ((kept.nodes kind).conforming id version there).typed
    obtain ⟨again, stands, sameName⟩ := told.typeName_kept follows typed
    rw [same, stands] at typedLater
    cases typedLater
    exact ⟨version, there, same, titledLater.trans (sameName.trans titled.symm)⟩

end Database

end LineageLoad
